/-
The statistics of ports and queues: `cofportstatsarray` and `cofqueuestatsarray`,
entries of a fixed size one after another.

An array reads the key of an entry by itself, and in version 1.0 it does so by the
structure of 1.2: 32 bits where there are 16 and padding. So what is unpacked in
1.0 is under the port of the entry only for port 0, and only if the padding is zero
in the buffer (`Cofportstatsarray.comesBack_iff`, `Cofqueuestatsarray.comesBack_iff`).
-/
import RoflCommon.Openflow.Coxmatch
import RoflCommon.Lib.Record
import RoflCommon.Lib.Store
import RoflCommon.Lib.Tlv

namespace RoflCommon

open Octets

inductive StatsException
  | inval
  | badVersion
  | badRequestVersion
deriving DecidableEq, Repr

/-- A class of arrays: what `pack` and `unpack` of the class of entries do in a version,
and what the array takes for the key of an entry. -/
structure StatsArray (ε κ : Type) where
  layout : UInt8 → Option Record.Layout
  ofVersion : ε → UInt8
  fields : ε → List ℕ
  ofFields : UInt8 → List ℕ → ε
  keySize : ℕ
  keySize_pos : 0 < keySize
  key : List UInt8 → κ
  fits : ∀ {e l}, layout (ofVersion e) = some l → Record.Fits l (fields e)
  ofVersion_ofFields : ∀ v fs, ofVersion (ofFields v fs) = v
  keySize_le : ∀ {v l}, layout v = some l → keySize ≤ Record.size l
  key_append : ∀ {buf} rest, keySize ≤ buf.length → key (buf ++ rest) = key buf
  size10 : (layout Openflow10.OFP_VERSION).map Record.size = (layout Openflow12.OFP_VERSION).map Record.size

namespace StatsArray

variable {ε κ : Type} (A : StatsArray ε κ)

/-! ### An entry -/

def size (e : ε) : ℕ := Record.size ((A.layout (A.ofVersion e)).getD [])

def packEntry (e : ε) (buf : List UInt8) : Except StatsException (List UInt8) :=
  match A.layout (A.ofVersion e) with
  | none => .error .badVersion
  | some l => if buf.length < Record.size l then .error .inval else .ok (Record.write l (A.fields e) buf)

/-- A new entry of the version unpacks. -/
def unpackEntry (v : UInt8) (buf : List UInt8) : Except StatsException ε :=
  match A.layout v with
  | none => .error .badVersion
  | some l => if buf.length < Record.size l then .error .inval else .ok (A.ofFields v (Record.read l buf))

/-! ### Packing -/

/-- `length()` throws for an entry of no version. -/
def length (es : List (κ × ε)) : Except StatsException ℕ :=
  if ∀ e ∈ es, (A.layout (A.ofVersion e.2)).isSome then .ok (es.map fun e => A.size e.2).sum else .error .badVersion

def pack (v : UInt8) (es : List (κ × ε)) (buf : List UInt8) : Except StatsException (List UInt8) :=
  if buf = [] then .ok buf
  else do
    let length ← A.length es
    if buf.length < length then throw .inval
    else if (A.layout v).isNone then throw .badVersion
    else Tlv.packAll (fun e => A.size e.2) (fun e => A.packEntry e.2) es buf

/-- The structure the loop goes by: 1.0 is handled by the case of 1.2. -/
def loopLayout (v : UInt8) : Option Record.Layout :=
  A.layout (if v = Openflow10.OFP_VERSION then Openflow12.OFP_VERSION else v)

variable {A} {v : UInt8} {l : Record.Layout}

theorem loopLayout_size (hl : A.layout v = some l) : (A.loopLayout v).map Record.size = some (Record.size l) := by
  have hmap : (A.layout v).map Record.size = some (Record.size l) := by rw [hl, Option.map_some]
  unfold loopLayout
  split
  · next hv =>
    subst hv
    rw [← A.size10, hmap]
  · exact hmap

theorem size_eq (hl : A.layout v = some l) {e : ε} (he : A.ofVersion e = v) : A.size e = Record.size l := by
  rw [size, he, hl, Option.getD_some]

variable (A v l) in
/-- What is written into the slot of an entry. -/
def image (p : (κ × ε) × List UInt8) : List UInt8 := Record.write l (A.fields p.1.2) p.2

variable (A v l) in
/-- What is unpacked of the slot of an entry, and under which key. -/
def slot (p : (κ × ε) × List UInt8) : κ × ε := (A.key (A.image l p), A.ofFields v (A.fields p.1.2))

variable (A) in
/-- The entries with their slots. -/
def slots (es : List (κ × ε)) (buf : List UInt8) : List ((κ × ε) × List UInt8) :=
  Tlv.slots (fun e => A.size e.2) es buf

theorem sum_of_length {es : List (κ × ε)} {n : ℕ} (h : A.length es = .ok n) : n = (es.map fun e => A.size e.2).sum := by
  unfold length at h
  split at h
  · cases h
    rfl
  · cases h

theorem mem_of_mem_slots {es : List (κ × ε)} {buf : List UInt8} {p : (κ × ε) × List UInt8} (hp : p ∈ A.slots es buf) :
    p.1 ∈ es := by
  have := List.mem_map_of_mem (f := Prod.fst) hp
  rwa [slots, Tlv.map_slots] at this

theorem exists_slot {es : List (κ × ε)} (buf : List UInt8) {e : κ × ε} (he : e ∈ es) :
    ∃ p ∈ A.slots es buf, p.1 = e := by
  have hslots : (A.slots es buf).map Prod.fst = es := Tlv.map_slots es buf
  rw [← hslots] at he
  exact List.mem_map.mp he

section

variable {es : List (κ × ε)} {buf : List UInt8} (hl : A.layout v = some l) (hes : ∀ e ∈ es, A.ofVersion e.2 = v)
  (hbuf : buf.length = (es.map fun e => A.size e.2).sum)

include hl hes hbuf

theorem slot_spec {p : (κ × ε) × List UInt8} (hp : p ∈ A.slots es buf) :
    A.ofVersion p.1.2 = v ∧ p.2.length = Record.size l ∧ Record.Fits l (A.fields p.1.2) := by
  have hv := hes _ (mem_of_mem_slots hp)
  have hlength := Tlv.length_slot hbuf.ge p hp
  exact ⟨hv, hlength.trans (size_eq hl hv), A.fits (by rw [hv, hl])⟩

theorem length_image {p : (κ × ε) × List UInt8} (hp : p ∈ A.slots es buf) : (A.image l p).length = Record.size l := by
  obtain ⟨-, hlength, hfits⟩ := slot_spec hl hes hbuf hp
  rw [image, Record.length_write hfits hlength.ge, hlength]

theorem pack_eq : A.pack v es buf = .ok ((A.slots es buf).flatMap (A.image l)) := by
  have hpack : Tlv.packAll (fun e => A.size e.2) (fun e => A.packEntry e.2) es buf =
      .ok ((A.slots es buf).flatMap (A.image l)) := Tlv.packAll_eq hbuf.le fun p hp => by
    obtain ⟨hv, hlength, hfits⟩ := slot_spec hl hes hbuf hp
    rw [packEntry, hv, hl]
    dsimp only
    rw [if_neg (by omega), image]
  have hlen : A.length es = .ok (es.map fun e => A.size e.2).sum := if_pos fun e he => by rw [hes e he, hl]; rfl
  unfold pack
  split
  · next hnil =>
    subst hnil
    cases es with
    | nil => exact hpack
    | cons e es =>
      have hpos := A.keySize_pos
      have hle := A.keySize_le hl
      have hsize := size_eq hl (hes e (by simp))
      simp only [List.length_nil, List.map_cons, List.sum_cons] at hbuf
      omega
  · rw [hlen]
    show (if buf.length < _ then _ else if (A.layout v).isNone = true then _ else _) = _
    rw [if_neg (by omega), hl]
    exact hpack

end

/-! ### Unpacking -/

variable {σ : Type} [DecidableEq κ]

section

variable (A)

/-- The loop of `unpack`: as long as there is a structure left, it is unpacked and put
under its key. -/
def walker (S : Store σ κ ε) (v : UInt8) (n : ℕ) : Tlv.Walker UInt8 σ StatsException where
  header := max 1 n
  header_pos := by omega
  size _ := max 1 n
  header_le _ := le_refl _
  read s buf := do return S.put s (A.key buf) (← A.unpackEntry v (buf.take n))

def unpack (S : Store σ κ ε) (v : UInt8) (buf : List UInt8) : Except StatsException σ :=
  match A.loopLayout v with
  | none => .error .badRequestVersion
  | some l => (A.walker S v (Record.size l)).walk S.empty buf

/-- Packed into the buffer, the entries are unpacked to the same under each key. -/
def RoundTrips (S : Store σ κ ε) (v : UInt8) (s : σ) (es : List (κ × ε)) (buf : List UInt8) : Prop :=
  ∃ buf' s', A.pack v es buf = .ok buf' ∧ A.unpack S v buf' = .ok s' ∧ ∀ k, S.find s' k = S.find s k

end

variable {S : Store σ κ ε}

theorem unpack_image {es : List (κ × ε)} {buf : List UInt8} (hl : A.layout v = some l)
    (hes : ∀ e ∈ es, A.ofVersion e.2 = v) (hbuf : buf.length = (es.map fun e => A.size e.2).sum) :
    A.unpack S v ((A.slots es buf).flatMap (A.image l)) = .ok (S.build ((A.slots es buf).map (A.slot v l))) := by
  have hpos := A.keySize_pos
  have hle := A.keySize_le hl
  obtain ⟨l', hl', hsize'⟩ := Option.map_eq_some_iff.mp (loopLayout_size hl)
  have hmax : max 1 (Record.size l) = Record.size l := by omega
  have hheader : ∀ p ∈ A.slots es buf, (A.walker S v (Record.size l)).header ≤ (A.image l p).length := fun p hp => by
    rw [length_image hl hes hbuf hp]
    exact hmax.le
  have hsize : ∀ p ∈ A.slots es buf, ∀ rest,
      (A.walker S v (Record.size l)).size (A.image l p ++ rest) = (A.image l p).length := fun p hp rest => by
    rw [length_image hl hes hbuf hp]
    exact hmax
  have hread : ∀ p ∈ A.slots es buf, ∀ s rest, (A.walker S v (Record.size l)).read s (A.image l p ++ rest) =
      .ok (S.put s (A.slot v l p).1 (A.slot v l p).2) := fun p hp s rest => by
    obtain ⟨-, hlength, hfits⟩ := slot_spec hl hes hbuf hp
    have himage := length_image hl hes hbuf hp
    have hunpack : A.unpackEntry v (A.image l p) = .ok (A.ofFields v (A.fields p.1.2)) := by
      rw [unpackEntry, hl]
      dsimp only
      rw [if_neg (by omega), image, Record.read_write hfits hlength.ge]
    show (do return S.put s (A.key (A.image l p ++ rest)) (← A.unpackEntry v ((A.image l p ++ rest).take _))) = _
    rw [List.take_left' himage, A.key_append rest (hle.trans himage.ge), hunpack]
    rfl
  have hwalk := Tlv.Walker.walk_encode hheader hsize hread S.empty []
  rw [List.append_nil] at hwalk
  rw [unpack, hl']
  dsimp only
  rw [hsize', hwalk, Tlv.Walker.walk_short (Nat.lt_of_lt_of_le Nat.zero_lt_one (le_max_left 1 _)), Store.build,
    List.foldl_map]

/-- Whatever is unpacked is of the version of the array. -/
theorem ofVersion_of_unpack {buf : List UInt8} {s : σ} (h : A.unpack S v buf = .ok s) {k : κ} {e : ε}
    (hfind : S.find s k = some e) : A.ofVersion e = v := by
  unfold unpack at h
  split at h
  · cases h
  · refine Tlv.Walker.walk_rule (P := fun s => ∀ k e, S.find s k = some e → A.ofVersion e = v) ?_ ?_ h k e hfind
    · intro s b s' hs _ hread k e hfind
      obtain ⟨e', he', hput⟩ := Except.bind_eq_ok.mp hread
      cases hput
      rw [S.find_put] at hfind
      split at hfind
      · cases hfind
        unfold unpackEntry at he'
        split at he'
        · cases he'
        · split at he'
          · cases he'
          · cases he'
            exact A.ofVersion_ofFields v _
      · exact hs k e hfind
    · intro k e hfind
      rw [S.find_empty] at hfind
      cases hfind

/-- The entries come back exactly when they are of the version of the array, and each of
them is read from its slot as it is, and under its key. -/
theorem comesBack_iff {s : σ} {es : List (κ × ε)} (hs : S.Lists s es) {buf : List UInt8} (hl : A.layout v = some l)
    (hbuf : buf.length = (es.map fun e => A.size e.2).sum) (ident : ε → κ) (hident : ∀ e ∈ es, ident e.2 = e.1)
    (hkeep : ∀ e ∈ es, A.ofVersion e.2 = v → ident (A.ofFields v (A.fields e.2)) = e.1) (P : κ × ε → Prop)
    (Q : (κ × ε) × List UInt8 → Prop)
    (hslot : ∀ p, p.1 ∈ es → A.ofVersion p.1.2 = v → p.2.length = Record.size l → (A.slot v l p = p.1 ↔ P p.1 ∧ Q p)) :
    A.RoundTrips S v s es buf ↔
      (∀ e ∈ es, A.ofVersion e.2 = v) ∧ (∀ e ∈ es, P e) ∧ ∀ p ∈ A.slots es buf, Q p := by
  have hbuild : (∀ e ∈ es, A.ofVersion e.2 = v) →
      ((∀ k, S.find (S.build ((A.slots es buf).map (A.slot v l))) k = S.find s k) ↔
        (∀ e ∈ es, P e) ∧ ∀ p ∈ A.slots es buf, Q p) := fun hes => by
    refine (Store.build_eq_iff hs (Tlv.map_slots es buf) hident fun p hp =>
      hkeep p.1 (mem_of_mem_slots hp) (hes p.1 (mem_of_mem_slots hp))).trans ?_
    have hiff : ∀ p ∈ A.slots es buf, A.slot v l p = p.1 ↔ P p.1 ∧ Q p := fun p hp =>
      hslot p (mem_of_mem_slots hp) (hes _ (mem_of_mem_slots hp)) (slot_spec hl hes hbuf hp).2.1
    constructor
    · intro h
      refine ⟨fun e he => ?_, fun p hp => ((hiff p hp).mp (h p hp)).2⟩
      obtain ⟨p, hp, rfl⟩ := exists_slot buf he
      exact ((hiff p hp).mp (h p hp)).1
    · rintro ⟨hP, hQ⟩ p hp
      exact (hiff p hp).mpr ⟨hP _ (mem_of_mem_slots hp), hQ p hp⟩
  constructor
  · rintro ⟨buf', s', hpack, hunpack, hfind⟩
    have hes : ∀ e ∈ es, A.ofVersion e.2 = v := fun e he =>
      ofVersion_of_unpack hunpack ((hfind e.1).trans ((hs.find e.1 e.2).mpr he))
    refine ⟨hes, (hbuild hes).mp ?_⟩
    rw [pack_eq hl hes hbuf] at hpack
    cases hpack
    rw [unpack_image hl hes hbuf] at hunpack
    cases hunpack
    exact hfind
  · rintro ⟨hes, h⟩
    exact ⟨_, _, pack_eq hl hes hbuf, unpack_image hl hes hbuf, (hbuild hes).mpr h⟩

end StatsArray

/-- A structure of 1.0 that is read by that of 1.2: 16 bits, and padding, which is what it was
in the buffer. -/
theorem field_write10 {k n : ℕ} (hk : 2 ≤ k) (hn : n < 65536) (l : Record.Layout) (vs : List ℕ) {buf : List UInt8}
    (hbuf : 2 + k ≤ buf.length) :
    field (Record.write (.field 2 :: .pad k :: l) (n :: vs) buf) 0 4 = n * 65536 + field buf 2 2 := by
  have htake : 2 ≤ ((buf.drop 2).take k).length := by
    rw [List.length_take, List.length_drop]
    omega
  have hrest : 2 ≤ ((buf.drop 2).take k ++ Record.write l vs ((buf.drop 2).drop k)).length := by
    rw [List.length_append]
    omega
  have hpad : field ((buf.drop 2).take k ++ Record.write l vs ((buf.drop 2).drop k)) 0 2 = field buf 2 2 := by
    rw [field_append_left htake, field_take hk, field_drop]
  have hacross := field_append_across (octets 2 n) hrest
  rw [length_octets, number_octets_of_lt hn, hpad] at hacross
  exact hacross

/-- No duration is lost: there are durations on the wire since 1.3. -/
def DurationKept (v : UInt8) (sec nsec : UInt32) : Prop :=
  v = Openflow10.OFP_VERSION ∨ v = Openflow12.OFP_VERSION → sec = 0 ∧ nsec = 0

/-- What an array of 1.0 reads for the port number out of the slot is the port number. -/
def PortKept (v : UInt8) (port : ℕ) (slot : List UInt8) : Prop :=
  v = Openflow10.OFP_VERSION → port = 0 ∧ field slot 2 2 = 0

instance (v : UInt8) (sec nsec : UInt32) : Decidable (DurationKept v sec nsec) :=
  inferInstanceAs (Decidable (_ → _))

theorem portKept_iff {v : UInt8} {port : ℕ} {slot : List UInt8} :
    (if v = Openflow10.OFP_VERSION then port * 65536 + field slot 2 2 else port) = port ↔ PortKept v port slot := by
  unfold PortKept
  split_ifs with h10
  · rw [imp_iff_right h10]
    omega
  · simp [h10]

/-! ## Ports -/

/-- `cofport_stats_reply`. -/
structure CofportStatsReply where
  ofVersion : UInt8
  portNo : UInt32
  rxPackets : UInt64
  txPackets : UInt64
  rxBytes : UInt64
  txBytes : UInt64
  rxDropped : UInt64
  txDropped : UInt64
  rxErrors : UInt64
  txErrors : UInt64
  rxFrameErr : UInt64
  rxOverErr : UInt64
  rxCrcErr : UInt64
  collisions : UInt64
  durationSec : UInt32
  durationNsec : UInt32
deriving DecidableEq

attribute [ext] CofportStatsReply

namespace CofportStatsReply

def new (ofVersion : UInt8) : CofportStatsReply := ⟨ofVersion, 0, 0, 0, 0, 0, 0, 0, 0, 0, 0, 0, 0, 0, 0, 0⟩

def counters (e : CofportStatsReply) : List ℕ :=
  [e.rxPackets.toNat, e.txPackets.toNat, e.rxBytes.toNat, e.txBytes.toNat, e.rxDropped.toNat, e.txDropped.toNat,
   e.rxErrors.toNat, e.txErrors.toNat, e.rxFrameErr.toNat, e.rxOverErr.toNat, e.rxCrcErr.toNat, e.collisions.toNat]

/-- `struct ofp_port_stats`. -/
def layout (v : UInt8) : Option Record.Layout :=
  if v = Openflow10.OFP_VERSION then some ([.field 2, .pad 6] ++ .replicate 12 (.field 8))
  else if v = Openflow12.OFP_VERSION then some ([.field 4, .pad 4] ++ .replicate 12 (.field 8))
  else if v = Openflow13.OFP_VERSION then some ([.field 4, .pad 4] ++ .replicate 12 (.field 8) ++ [.field 4, .field 4])
  else none

def fields (e : CofportStatsReply) : List ℕ :=
  if e.ofVersion = Openflow10.OFP_VERSION then e.portNo.toNat % 65536 :: e.counters
  else if e.ofVersion = Openflow12.OFP_VERSION then e.portNo.toNat :: e.counters
  else e.portNo.toNat :: e.counters ++ [e.durationSec.toNat, e.durationNsec.toNat]

/-- The durations stay what they are in a new entry, unless they are read. -/
def ofFields (v : UInt8) : List ℕ → CofportStatsReply
  | portNo :: rxPackets :: txPackets :: rxBytes :: txBytes :: rxDropped :: txDropped :: rxErrors :: txErrors ::
      rxFrameErr :: rxOverErr :: rxCrcErr :: collisions :: durations =>
    ⟨v, .ofNat portNo, .ofNat rxPackets, .ofNat txPackets, .ofNat rxBytes, .ofNat txBytes, .ofNat rxDropped,
     .ofNat txDropped, .ofNat rxErrors, .ofNat txErrors, .ofNat rxFrameErr, .ofNat rxOverErr, .ofNat rxCrcErr,
     .ofNat collisions, .ofNat (durations.getD 0 0), .ofNat (durations.getD 1 0)⟩
  | _ => new v

theorem fits {e : CofportStatsReply} {l : Record.Layout} (h : layout e.ofVersion = some l) : Record.Fits l e.fields := by
  have hcounters : ∀ (l' : Record.Layout) (vs : List ℕ), Record.Fits l' vs →
      Record.Fits (.replicate 12 (.field 8) ++ l') (e.counters ++ vs) := fun _ _ hrest =>
    ⟨e.rxPackets.toNat_lt, e.txPackets.toNat_lt, e.rxBytes.toNat_lt, e.txBytes.toNat_lt, e.rxDropped.toNat_lt,
      e.txDropped.toNat_lt, e.rxErrors.toNat_lt, e.txErrors.toNat_lt, e.rxFrameErr.toNat_lt, e.rxOverErr.toNat_lt,
      e.rxCrcErr.toNat_lt, e.collisions.toNat_lt, hrest⟩
  unfold layout at h
  unfold fields
  split_ifs at h ⊢ with h10 h12 h13
  · cases h
    exact ⟨Nat.mod_lt _ (by decide), hcounters [] [] rfl⟩
  · cases h
    exact ⟨e.portNo.toNat_lt, hcounters [] [] rfl⟩
  · cases h
    exact ⟨e.portNo.toNat_lt, hcounters [.field 4, .field 4] _ ⟨e.durationSec.toNat_lt, e.durationNsec.toNat_lt, rfl⟩⟩

theorem size_layout {v : UInt8} {l : Record.Layout} (h : layout v = some l) : 104 ≤ Record.size l := by
  unfold layout at h
  split_ifs at h <;> cases h <;> decide

theorem ofVersion_ofFields (v : UInt8) (fs : List ℕ) : (ofFields v fs).ofVersion = v := by
  unfold ofFields
  split <;> rfl

theorem portNo_pos : 0 < 4 := by decide

end CofportStatsReply

/-- `cofportstatsarray`. -/
def portStats : StatsArray CofportStatsReply ℕ where
  layout := CofportStatsReply.layout
  ofVersion := CofportStatsReply.ofVersion
  fields := CofportStatsReply.fields
  ofFields := CofportStatsReply.ofFields
  keySize := 4
  keySize_pos := CofportStatsReply.portNo_pos
  key buf := field buf 0 4
  fits := CofportStatsReply.fits
  ofVersion_ofFields := CofportStatsReply.ofVersion_ofFields
  keySize_le h := (CofportStatsReply.size_layout h).trans' (by decide)
  key_append rest h := field_append_left h rest
  size10 := by decide

namespace CofportStatsReply

/-- What is unpacked of an entry that was packed: the durations are there in 1.3 only. -/
theorem ofFields_fields {e : CofportStatsReply} (hport : e.ofVersion = Openflow10.OFP_VERSION → e.portNo.toNat < 65536) :
    ofFields e.ofVersion e.fields =
      if e.ofVersion = Openflow10.OFP_VERSION ∨ e.ofVersion = Openflow12.OFP_VERSION then
        { e with durationSec := 0, durationNsec := 0 }
      else e := by
  unfold fields
  split_ifs with h10 h12 h
  · simp only [counters, ofFields, Nat.mod_eq_of_lt (hport h10), UInt32.ofNat_toNat, UInt64.ofNat_toNat]
    rfl
  · simp_all
  · simp only [counters, ofFields, UInt32.ofNat_toNat, UInt64.ofNat_toNat]
    rfl
  · simp_all
  · simp_all
  · simp only [counters, ofFields, List.cons_append, List.nil_append, UInt32.ofNat_toNat, UInt64.ofNat_toNat]
    simp

theorem cut_eq_iff {e : CofportStatsReply} :
    { e with durationSec := 0, durationNsec := 0 } = e ↔ e.durationSec = 0 ∧ e.durationNsec = 0 := by
  simp [CofportStatsReply.ext_iff, eq_comm]

end CofportStatsReply

/-- `cofportstatsarray`. -/
structure Cofportstatsarray where
  ofpVersion : UInt8
  array : Omap ℕ CofportStatsReply

namespace Cofportstatsarray

def new (ofpVersion : UInt8) : Cofportstatsarray := ⟨ofpVersion, .empty⟩

def length (x : Cofportstatsarray) : Except StatsException ℕ := portStats.length x.array.entries

def pack (x : Cofportstatsarray) (buf : List UInt8) : Except StatsException (List UInt8) :=
  portStats.pack x.ofpVersion x.array.entries buf

def unpack (x : Cofportstatsarray) (buf : List UInt8) : Except StatsException Cofportstatsarray := do
  return { x with array := ← portStats.unpack Omap.store x.ofpVersion buf }

/-- An array of a version, with the entries under their port numbers, which have 16 bits
in 1.0. -/
structure Keyed (x : Cofportstatsarray) : Prop where
  version : (CofportStatsReply.layout x.ofpVersion).isSome
  key : ∀ e ∈ x.array.entries, e.1 = e.2.portNo.toNat
  port10 : x.ofpVersion = Openflow10.OFP_VERSION → ∀ e ∈ x.array.entries, e.1 < 65536

/-- Packed into the buffer, the array is unpacked by a new one with the same entries under
the same keys. -/
def RoundTrips (x : Cofportstatsarray) (buf : List UInt8) : Prop :=
  ∃ buf' y, x.pack buf = .ok buf' ∧ (new x.ofpVersion).unpack buf' = .ok y ∧
    ∀ port, y.array.find? port = x.array.find? port

/-- What is on the wire comes back: the entries are of the version of the array, and have
durations in 1.3 only; and in 1.0 the port is 0, and there are zeros in the buffer behind
the port number. -/
structure Kept (x : Cofportstatsarray) (buf : List UInt8) : Prop where
  version : ∀ e ∈ x.array.entries, e.2.ofVersion = x.ofpVersion
  duration : ∀ e ∈ x.array.entries, DurationKept x.ofpVersion e.2.durationSec e.2.durationNsec
  port : ∀ p ∈ portStats.slots x.array.entries buf, PortKept x.ofpVersion p.1.1 p.2

theorem roundTrips_def {x : Cofportstatsarray} {buf : List UInt8} :
    x.RoundTrips buf ↔ portStats.RoundTrips Omap.store x.ofpVersion x.array x.array.entries buf := by
  constructor
  · rintro ⟨buf', y, hpack, hunpack, hfind⟩
    obtain ⟨s, hs, hy⟩ := Except.bind_eq_ok.mp hunpack
    cases hy
    exact ⟨buf', s, hpack, hs, hfind⟩
  · rintro ⟨buf', s, hpack, hunpack, hfind⟩
    exact ⟨buf', ⟨x.ofpVersion, s⟩, hpack, Except.bind_eq_ok.mpr ⟨s, hunpack, rfl⟩, hfind⟩

theorem key_image {v : UInt8} {l : Record.Layout} (hl : CofportStatsReply.layout v = some l)
    {p : (ℕ × CofportStatsReply) × List UInt8} (hv : p.1.2.ofVersion = v) (hlength : p.2.length = Record.size l)
    (hport : v = Openflow10.OFP_VERSION → p.1.2.portNo.toNat < 65536) :
    portStats.key (portStats.image l p) =
      if v = Openflow10.OFP_VERSION then p.1.2.portNo.toNat * 65536 + field p.2 2 2 else p.1.2.portNo.toNat := by
  have hsize := CofportStatsReply.size_layout hl
  show field (Record.write l p.1.2.fields p.2) 0 4 = _
  unfold CofportStatsReply.layout at hl
  unfold CofportStatsReply.fields
  rw [hv]
  split_ifs at hl ⊢ with h10 h12 h13
  · cases hl
    rw [Nat.mod_eq_of_lt (hport h10)]
    exact field_write10 (by decide) (hport h10) _ _ (by omega)
  · cases hl
    exact field_octets_of_lt p.1.2.portNo.toNat_lt _
  · cases hl
    exact field_octets_of_lt p.1.2.portNo.toNat_lt _

theorem ofFields_eq_iff {e : CofportStatsReply} (hport : e.ofVersion = Openflow10.OFP_VERSION → e.portNo.toNat < 65536) :
    CofportStatsReply.ofFields e.ofVersion e.fields = e ↔
      DurationKept e.ofVersion e.durationSec e.durationNsec := by
  rw [CofportStatsReply.ofFields_fields hport, DurationKept]
  split_ifs with h
  · rw [CofportStatsReply.cut_eq_iff, imp_iff_right h]
  · simp [h]

/-- The array comes back exactly when it is all on the wire, and in 1.0 has no port but 0. -/
theorem comesBack_iff {x : Cofportstatsarray} (hx : x.Keyed) {buf : List UInt8} (hlength : x.length = .ok buf.length) :
    x.RoundTrips buf ↔ x.Kept buf := by
  have hbuf := StatsArray.sum_of_length hlength
  obtain ⟨l, hl⟩ := Option.isSome_iff_exists.mp hx.version
  have hport : ∀ e ∈ x.array.entries, x.ofpVersion = Openflow10.OFP_VERSION → e.2.portNo.toNat < 65536 :=
    fun e he h10 => hx.key e he ▸ hx.port10 h10 e he
  have hkeep : ∀ e ∈ x.array.entries, portStats.ofVersion e.2 = x.ofpVersion →
      (portStats.ofFields x.ofpVersion (portStats.fields e.2)).portNo.toNat = e.1 := fun e he hv => by
    have hv' : e.2.ofVersion = x.ofpVersion := hv
    have hread := CofportStatsReply.ofFields_fields (e := e.2) fun h10 => hport e he (hv'.symm.trans h10)
    show (CofportStatsReply.ofFields x.ofpVersion e.2.fields).portNo.toNat = e.1
    rw [← hv', hread, hx.key e he]
    split <;> rfl
  have hslot : ∀ p : (ℕ × CofportStatsReply) × List UInt8, p.1 ∈ x.array.entries →
      portStats.ofVersion p.1.2 = x.ofpVersion → p.2.length = Record.size l →
      (portStats.slot x.ofpVersion l p = p.1 ↔
        DurationKept x.ofpVersion p.1.2.durationSec p.1.2.durationNsec ∧ PortKept x.ofpVersion p.1.1 p.2) :=
      fun p hp hv hlength => by
    have hv' : p.1.2.ofVersion = x.ofpVersion := hv
    have hread := ofFields_eq_iff (e := p.1.2) fun h10 => hport p.1 hp (hv'.symm.trans h10)
    have hkey := key_image hl hv' hlength (hport p.1 hp)
    rw [hv'] at hread
    rw [Prod.ext_iff, and_comm]
    refine and_congr hread ?_
    show portStats.key (portStats.image l p) = p.1.1 ↔ _
    rw [hkey, hx.key p.1 hp]
    exact portKept_iff
  rw [roundTrips_def, StatsArray.comesBack_iff x.array.lists_entries hl hbuf (fun e => e.portNo.toNat)
    (fun e he => (hx.key e he).symm) hkeep (fun e => DurationKept x.ofpVersion e.2.durationSec e.2.durationNsec)
    (fun p => PortKept x.ofpVersion p.1.1 p.2) hslot]
  exact ⟨fun ⟨hv, hd, hp⟩ => ⟨hv, hd, hp⟩, fun h => ⟨h.version, h.duration, h.port⟩⟩

end Cofportstatsarray

/-! ## Queues -/

/-- `cofqueue_stats_reply`. -/
structure CofqueueStatsReply where
  ofVersion : UInt8
  portNo : UInt32
  queueId : UInt32
  txBytes : UInt64
  txPackets : UInt64
  txErrors : UInt64
  durationSec : UInt32
  durationNsec : UInt32
deriving DecidableEq

attribute [ext] CofqueueStatsReply

namespace CofqueueStatsReply

def new (ofVersion : UInt8) : CofqueueStatsReply := ⟨ofVersion, 0, 0, 0, 0, 0, 0, 0⟩

def counters (e : CofqueueStatsReply) : List ℕ :=
  [e.queueId.toNat, e.txBytes.toNat, e.txPackets.toNat, e.txErrors.toNat]

/-- `struct ofp_queue_stats`. -/
def layout (v : UInt8) : Option Record.Layout :=
  if v = Openflow10.OFP_VERSION then some [.field 2, .pad 2, .field 4, .field 8, .field 8, .field 8]
  else if v = Openflow12.OFP_VERSION then some [.field 4, .field 4, .field 8, .field 8, .field 8]
  else if v = Openflow13.OFP_VERSION then some [.field 4, .field 4, .field 8, .field 8, .field 8, .field 4, .field 4]
  else none

def fields (e : CofqueueStatsReply) : List ℕ :=
  if e.ofVersion = Openflow10.OFP_VERSION then e.portNo.toNat % 65536 :: e.counters
  else if e.ofVersion = Openflow12.OFP_VERSION then e.portNo.toNat :: e.counters
  else e.portNo.toNat :: e.counters ++ [e.durationSec.toNat, e.durationNsec.toNat]

/-- The durations stay what they are in a new entry, unless they are read. -/
def ofFields (v : UInt8) : List ℕ → CofqueueStatsReply
  | portNo :: queueId :: txBytes :: txPackets :: txErrors :: durations =>
    ⟨v, .ofNat portNo, .ofNat queueId, .ofNat txBytes, .ofNat txPackets, .ofNat txErrors,
     .ofNat (durations.getD 0 0), .ofNat (durations.getD 1 0)⟩
  | _ => new v

theorem fits {e : CofqueueStatsReply} {l : Record.Layout} (h : layout e.ofVersion = some l) :
    Record.Fits l e.fields := by
  have hcounters : ∀ (l' : Record.Layout) (vs : List ℕ), Record.Fits l' vs →
      Record.Fits (.field 4 :: .field 8 :: .field 8 :: .field 8 :: l') (e.counters ++ vs) := fun _ _ hrest =>
    ⟨e.queueId.toNat_lt, e.txBytes.toNat_lt, e.txPackets.toNat_lt, e.txErrors.toNat_lt, hrest⟩
  unfold layout at h
  unfold fields
  split_ifs at h ⊢ with h10 h12 h13
  · cases h
    exact ⟨Nat.mod_lt _ (by decide), hcounters [] [] rfl⟩
  · cases h
    exact ⟨e.portNo.toNat_lt, hcounters [] [] rfl⟩
  · cases h
    exact ⟨e.portNo.toNat_lt, hcounters [.field 4, .field 4] _ ⟨e.durationSec.toNat_lt, e.durationNsec.toNat_lt, rfl⟩⟩

theorem size_layout {v : UInt8} {l : Record.Layout} (h : layout v = some l) : 32 ≤ Record.size l := by
  unfold layout at h
  split_ifs at h <;> cases h <;> decide

theorem ofVersion_ofFields (v : UInt8) (fs : List ℕ) : (ofFields v fs).ofVersion = v := by
  unfold ofFields
  split <;> rfl

/-- What is unpacked of an entry that was packed: the durations are there in 1.3 only. -/
theorem ofFields_fields {e : CofqueueStatsReply} (hport : e.ofVersion = Openflow10.OFP_VERSION → e.portNo.toNat < 65536) :
    ofFields e.ofVersion e.fields =
      if e.ofVersion = Openflow10.OFP_VERSION ∨ e.ofVersion = Openflow12.OFP_VERSION then
        { e with durationSec := 0, durationNsec := 0 }
      else e := by
  unfold fields
  split_ifs with h10 h12 h
  · simp only [counters, ofFields, Nat.mod_eq_of_lt (hport h10), UInt32.ofNat_toNat, UInt64.ofNat_toNat]
    rfl
  · simp_all
  · simp only [counters, ofFields, UInt32.ofNat_toNat, UInt64.ofNat_toNat]
    rfl
  · simp_all
  · simp_all
  · simp only [counters, ofFields, List.cons_append, List.nil_append, UInt32.ofNat_toNat, UInt64.ofNat_toNat]
    simp

theorem cut_eq_iff {e : CofqueueStatsReply} :
    { e with durationSec := 0, durationNsec := 0 } = e ↔ e.durationSec = 0 ∧ e.durationNsec = 0 := by
  simp [CofqueueStatsReply.ext_iff, eq_comm]

end CofqueueStatsReply

/-- `cofqueuestatsarray`. -/
def queueStats : StatsArray CofqueueStatsReply (ℕ × ℕ) where
  layout := CofqueueStatsReply.layout
  ofVersion := CofqueueStatsReply.ofVersion
  fields := CofqueueStatsReply.fields
  ofFields := CofqueueStatsReply.ofFields
  keySize := 8
  keySize_pos := by decide
  key buf := (field buf 0 4, field buf 4 4)
  fits := CofqueueStatsReply.fits
  ofVersion_ofFields := CofqueueStatsReply.ofVersion_ofFields
  keySize_le h := (CofqueueStatsReply.size_layout h).trans' (by decide)
  key_append rest h := by rw [field_append_left (by omega), field_append_left h]
  size10 := by decide

/-- `cofqueuestatsarray`: entries by port and queue. -/
structure Cofqueuestatsarray where
  ofpVersion : UInt8
  array : Omap ℕ (Omap ℕ CofqueueStatsReply)

namespace Cofqueuestatsarray

def new (ofpVersion : UInt8) : Cofqueuestatsarray := ⟨ofpVersion, .empty⟩

def length (x : Cofqueuestatsarray) : Except StatsException ℕ := queueStats.length x.array.entries₂

def pack (x : Cofqueuestatsarray) (buf : List UInt8) : Except StatsException (List UInt8) :=
  queueStats.pack x.ofpVersion x.array.entries₂ buf

def unpack (x : Cofqueuestatsarray) (buf : List UInt8) : Except StatsException Cofqueuestatsarray := do
  return { x with array := ← queueStats.unpack Omap.store₂ x.ofpVersion buf }

/-- An array of a version, with the entries under their ports, which have 16 bits in 1.0,
and queues. -/
structure Keyed (x : Cofqueuestatsarray) : Prop where
  version : (CofqueueStatsReply.layout x.ofpVersion).isSome
  key : ∀ e ∈ x.array.entries₂, e.1 = (e.2.portNo.toNat, e.2.queueId.toNat)
  port10 : x.ofpVersion = Openflow10.OFP_VERSION → ∀ e ∈ x.array.entries₂, e.1.1 < 65536

/-- Packed into the buffer, the array is unpacked by a new one with the same entries under
the same keys. -/
def RoundTrips (x : Cofqueuestatsarray) (buf : List UInt8) : Prop :=
  ∃ buf' y, x.pack buf = .ok buf' ∧ (new x.ofpVersion).unpack buf' = .ok y ∧
    ∀ k, y.array.find₂ k = x.array.find₂ k

/-- What is on the wire comes back, as for ports. -/
structure Kept (x : Cofqueuestatsarray) (buf : List UInt8) : Prop where
  version : ∀ e ∈ x.array.entries₂, e.2.ofVersion = x.ofpVersion
  duration : ∀ e ∈ x.array.entries₂, DurationKept x.ofpVersion e.2.durationSec e.2.durationNsec
  port : ∀ p ∈ queueStats.slots x.array.entries₂ buf, PortKept x.ofpVersion p.1.1.1 p.2

theorem roundTrips_def {x : Cofqueuestatsarray} {buf : List UInt8} :
    x.RoundTrips buf ↔ queueStats.RoundTrips Omap.store₂ x.ofpVersion x.array x.array.entries₂ buf := by
  constructor
  · rintro ⟨buf', y, hpack, hunpack, hfind⟩
    obtain ⟨s, hs, hy⟩ := Except.bind_eq_ok.mp hunpack
    cases hy
    exact ⟨buf', s, hpack, hs, hfind⟩
  · rintro ⟨buf', s, hpack, hunpack, hfind⟩
    exact ⟨buf', ⟨x.ofpVersion, s⟩, hpack, Except.bind_eq_ok.mpr ⟨s, hunpack, rfl⟩, hfind⟩

theorem key_image {v : UInt8} {l : Record.Layout} (hl : CofqueueStatsReply.layout v = some l)
    {p : ((ℕ × ℕ) × CofqueueStatsReply) × List UInt8} (hv : p.1.2.ofVersion = v) (hlength : p.2.length = Record.size l)
    (hport : v = Openflow10.OFP_VERSION → p.1.2.portNo.toNat < 65536) :
    queueStats.key (queueStats.image l p) =
      (if v = Openflow10.OFP_VERSION then p.1.2.portNo.toNat * 65536 + field p.2 2 2 else p.1.2.portNo.toNat,
        p.1.2.queueId.toNat) := by
  have hsize := CofqueueStatsReply.size_layout hl
  refine Prod.ext ?_ ?_
  · show field (Record.write l p.1.2.fields p.2) 0 4 = _
    unfold CofqueueStatsReply.layout at hl
    unfold CofqueueStatsReply.fields
    rw [hv]
    split_ifs at hl ⊢ with h10 h12 h13
    · cases hl
      rw [Nat.mod_eq_of_lt (hport h10)]
      exact field_write10 (by decide) (hport h10) _ _ (by omega)
    · cases hl
      exact field_octets_of_lt p.1.2.portNo.toNat_lt _
    · cases hl
      exact field_octets_of_lt p.1.2.portNo.toNat_lt _
  · show field (Record.write l p.1.2.fields p.2) 4 4 = _
    unfold CofqueueStatsReply.layout at hl
    unfold CofqueueStatsReply.fields
    rw [hv]
    have htake : ((p.2.drop 2).take 2).length = 2 := by
      rw [List.length_take, List.length_drop]
      omega
    split_ifs at hl ⊢ with h10 h12 h13
    · cases hl
      refine (field_append_right (by simp) _ _).trans ?_
      refine (field_append_right (by simp [htake]) _ _).trans ?_
      simp only [length_octets, htake]
      exact field_octets_of_lt p.1.2.queueId.toNat_lt _
    · cases hl
      refine (field_append_right (by simp) _ _).trans ?_
      rw [length_octets]
      exact field_octets_of_lt p.1.2.queueId.toNat_lt _
    · cases hl
      refine (field_append_right (by simp) _ _).trans ?_
      rw [length_octets]
      exact field_octets_of_lt p.1.2.queueId.toNat_lt _

theorem ofFields_eq_iff {e : CofqueueStatsReply}
    (hport : e.ofVersion = Openflow10.OFP_VERSION → e.portNo.toNat < 65536) :
    CofqueueStatsReply.ofFields e.ofVersion e.fields = e ↔
      DurationKept e.ofVersion e.durationSec e.durationNsec := by
  rw [CofqueueStatsReply.ofFields_fields hport, DurationKept]
  split_ifs with h
  · rw [CofqueueStatsReply.cut_eq_iff, imp_iff_right h]
  · simp [h]

/-- The array comes back exactly when it is all on the wire, and in 1.0 has no port but 0. -/
theorem comesBack_iff {x : Cofqueuestatsarray} (hx : x.Keyed) {buf : List UInt8} (hlength : x.length = .ok buf.length) :
    x.RoundTrips buf ↔ x.Kept buf := by
  have hbuf := StatsArray.sum_of_length hlength
  obtain ⟨l, hl⟩ := Option.isSome_iff_exists.mp hx.version
  have hport : ∀ e ∈ x.array.entries₂, x.ofpVersion = Openflow10.OFP_VERSION → e.2.portNo.toNat < 65536 :=
    fun e he h10 => by
      have h := hx.port10 h10 e he
      rwa [hx.key e he] at h
  have hkeep : ∀ e ∈ x.array.entries₂, queueStats.ofVersion e.2 = x.ofpVersion →
      ((queueStats.ofFields x.ofpVersion (queueStats.fields e.2)).portNo.toNat,
        (queueStats.ofFields x.ofpVersion (queueStats.fields e.2)).queueId.toNat) = e.1 := fun e he hv => by
    have hv' : e.2.ofVersion = x.ofpVersion := hv
    have hread := CofqueueStatsReply.ofFields_fields (e := e.2) fun h10 => hport e he (hv'.symm.trans h10)
    show ((CofqueueStatsReply.ofFields x.ofpVersion e.2.fields).portNo.toNat,
      (CofqueueStatsReply.ofFields x.ofpVersion e.2.fields).queueId.toNat) = e.1
    rw [← hv', hread, hx.key e he]
    split <;> rfl
  have hslot : ∀ p : ((ℕ × ℕ) × CofqueueStatsReply) × List UInt8, p.1 ∈ x.array.entries₂ →
      queueStats.ofVersion p.1.2 = x.ofpVersion → p.2.length = Record.size l →
      (queueStats.slot x.ofpVersion l p = p.1 ↔
        DurationKept x.ofpVersion p.1.2.durationSec p.1.2.durationNsec ∧ PortKept x.ofpVersion p.1.1.1 p.2) :=
      fun p hp hv hlength => by
    have hv' : p.1.2.ofVersion = x.ofpVersion := hv
    have hread := ofFields_eq_iff (e := p.1.2) fun h10 => hport p.1 hp (hv'.symm.trans h10)
    have hkey := key_image hl hv' hlength (hport p.1 hp)
    rw [hv'] at hread
    rw [Prod.ext_iff, and_comm]
    refine and_congr hread ?_
    show queueStats.key (queueStats.image l p) = p.1.1 ↔ _
    rw [hkey, hx.key p.1 hp, Prod.mk.injEq, and_iff_left rfl]
    exact portKept_iff
  rw [roundTrips_def, StatsArray.comesBack_iff x.array.lists_entries₂ hl hbuf
    (fun e => (e.portNo.toNat, e.queueId.toNat)) (fun e he => (hx.key e he).symm) hkeep
    (fun e => DurationKept x.ofpVersion e.2.durationSec e.2.durationNsec)
    (fun p => PortKept x.ofpVersion p.1.1.1 p.2) hslot]
  exact ⟨fun ⟨hv, hd, hp⟩ => ⟨hv, hd, hp⟩, fun h => ⟨h.version, h.duration, h.port⟩⟩

end Cofqueuestatsarray

/-! ## Both arrays -/

/-- An array keyed by port, or by port and queue, that is packed into as many octets as it
is long, comes back under the same keys if and only if no duration is lost and, in 1.0,
its ports are 0 with zeros behind them. -/
theorem statsArrays_roundTrip_iff {x : Cofportstatsarray} {y : Cofqueuestatsarray} {buf buf' : List UInt8}
    (hx : x.Keyed) (hxlength : x.length = .ok buf.length) (hy : y.Keyed) (hylength : y.length = .ok buf'.length) :
    (x.RoundTrips buf ↔ x.Kept buf) ∧ (y.RoundTrips buf' ↔ y.Kept buf') :=
  ⟨Cofportstatsarray.comesBack_iff hx hxlength, Cofqueuestatsarray.comesBack_iff hy hylength⟩

/-- Two ports in 1.3. -/
def Cofportstatsarray.pair : Cofportstatsarray :=
  ⟨Openflow13.OFP_VERSION,
    (Omap.empty.insert 1 { CofportStatsReply.new Openflow13.OFP_VERSION with portNo := 1, rxPackets := 7, durationSec := 5 }).insert
      70000 { CofportStatsReply.new Openflow13.OFP_VERSION with portNo := 70000, collisions := 3 }⟩

theorem Cofportstatsarray.keyed_pair : pair.Keyed := ⟨by decide, by decide, by decide⟩

theorem Cofportstatsarray.kept_pair : pair.Kept (.replicate 224 0) :=
  ⟨by decide, by decide, fun _ _ h => absurd h (by decide)⟩

/-- Two queues of a port in 1.2. -/
def Cofqueuestatsarray.pair : Cofqueuestatsarray :=
  ⟨Openflow12.OFP_VERSION, Omap.empty.insert 5
    ((Omap.empty.insert 1 { CofqueueStatsReply.new Openflow12.OFP_VERSION with portNo := 5, queueId := 1, txBytes := 9 }).insert
      2 { CofqueueStatsReply.new Openflow12.OFP_VERSION with portNo := 5, queueId := 2 })⟩

theorem Cofqueuestatsarray.keyed_pair : pair.Keyed := ⟨by decide, by decide, by decide⟩

theorem Cofqueuestatsarray.kept_pair : pair.Kept (.replicate 64 0) :=
  ⟨by decide, by decide, fun _ _ h => absurd h (by decide)⟩

theorem statsArrays_roundTrip_pairs :
    Cofportstatsarray.pair.RoundTrips (.replicate 224 0) ∧ Cofqueuestatsarray.pair.RoundTrips (.replicate 64 0) := by
  have hiff : (Cofportstatsarray.pair.RoundTrips (.replicate 224 0) ↔ Cofportstatsarray.pair.Kept (.replicate 224 0)) ∧
      (Cofqueuestatsarray.pair.RoundTrips (.replicate 64 0) ↔ Cofqueuestatsarray.pair.Kept (.replicate 64 0)) :=
    statsArrays_roundTrip_iff Cofportstatsarray.keyed_pair (by rw [List.length_replicate]; rfl)
      Cofqueuestatsarray.keyed_pair (by rw [List.length_replicate]; rfl)
  exact ⟨hiff.1.mpr Cofportstatsarray.kept_pair, hiff.2.mpr Cofqueuestatsarray.kept_pair⟩

/-- Port 1 in 1.0. -/
def Cofportstatsarray.single : Cofportstatsarray :=
  ⟨Openflow10.OFP_VERSION, Omap.empty.insert 1 { CofportStatsReply.new Openflow10.OFP_VERSION with portNo := 1 }⟩

/-- It comes back under the key 65536. -/
theorem single_moved : Cofportstatsarray.single.Keyed ∧
    Cofportstatsarray.single.length = .ok (List.replicate 104 (0 : UInt8)).length ∧
    ¬Cofportstatsarray.single.RoundTrips (.replicate 104 0) := by
  have hkeyed : Cofportstatsarray.single.Keyed := ⟨by decide, by decide, by decide⟩
  have hlength : Cofportstatsarray.single.length = .ok (List.replicate 104 (0 : UInt8)).length := by
    rw [List.length_replicate]
    rfl
  refine ⟨hkeyed, hlength, fun h => ?_⟩
  have hport := ((Cofportstatsarray.comesBack_iff hkeyed hlength).mp h).port _ List.mem_cons_self rfl
  exact absurd hport.1 (by decide)

end RoflCommon
