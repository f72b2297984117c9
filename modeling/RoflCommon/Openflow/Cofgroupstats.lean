/-
The statistics of groups: `cofgroupstatsarray`, with the counters of the buckets behind
each entry. An array and all that is in it are of one version.

Both loops are handed pointers and lengths. That over the entries goes on by the length
of an entry as it stands on the wire, and an entry reads counters up to that length. An
array that was packed is read back entry by entry (`Cofgroupstatsarray.comesBack`).
-/
import RoflCommon.Lib.Cursor
import RoflCommon.Lib.Omap
import RoflCommon.Openflow.Cofaction
import Mathlib.Algebra.Order.BigOperators.Group.List

namespace RoflCommon

open Octets Window

/-! ## Bucket counters -/

/-- `cofbucket_counter`. -/
structure CofbucketCounter where
  packetCount : UInt64
  byteCount : UInt64
deriving DecidableEq, Repr

namespace CofbucketCounter

/-- `struct ofp_bucket_counter`. -/
def layout : Record.Layout := [.field 8, .field 8]

def fields (c : CofbucketCounter) : List ℕ := [c.packetCount.toNat, c.byteCount.toNat]

def pack (c : CofbucketCounter) (buf : List UInt8) (buflen : ℕ) : Unpacked (List UInt8) :=
  if buflen = 0 then .ok buf
  else if buflen < 16 then raise .invalid
  else writeRecord layout c.fields buf

def unpack (buf : List UInt8) (buflen : ℕ) : Unpacked CofbucketCounter :=
  if buflen < 16 then raise .invalid
  else do
    let vs ← record layout buf
    return ⟨.ofNat (vs.getD 0 0), .ofNat (vs.getD 1 0)⟩

end CofbucketCounter

abbrev CofbucketCounters := Omap ℕ CofbucketCounter

namespace CofbucketCounters

def length (x : CofbucketCounters) : ℕ := (x.values.map fun _ => 16).sum

def pack (x : CofbucketCounters) (buf : List UInt8) (buflen : ℕ) : Unpacked (List UInt8) :=
  if buflen = 0 then .ok buf
  else if buflen < length x then raise .invalid
  else packAll id (fun _ => 16) (fun c buf => c.pack buf 16) 0 x.values buf

/-- The loop in `cofgroup_stats_reply::unpack`. -/
def turn : Turn UInt8 CofbucketCounters CodecException := fun x buf n =>
  if n < 16 then .ok none
  else do return some (x.insert x.size (← CofbucketCounter.unpack buf 16), 16)

end CofbucketCounters

/-! ## Entries -/

/-- `cofgroup_stats_reply`. -/
structure CofgroupStatsReply where
  groupId : UInt32
  refCount : UInt32
  packetCount : UInt64
  byteCount : UInt64
  durationSec : UInt32
  durationNsec : UInt32
  bucketCounters : CofbucketCounters
deriving DecidableEq

namespace CofgroupStatsReply

/-- `struct ofp_group_stats`. -/
def layout (v : UInt8) : Option Record.Layout :=
  if v = Openflow12.OFP_VERSION then
    some [.field 2, .pad 2, .field 4, .field 4, .pad 4, .field 8, .field 8]
  else if v = Openflow13.OFP_VERSION then
    some [.field 2, .pad 2, .field 4, .field 4, .pad 4, .field 8, .field 8, .field 4, .field 4]
  else none

/-- The constructor, as `add_group_stats` calls it. -/
def new (groupId : UInt32) : CofgroupStatsReply := ⟨groupId, 0, 0, 0, 0, 0, .empty⟩

/-- `length()`, in a version that is known. -/
def size (v : UInt8) (r : CofgroupStatsReply) : ℕ :=
  Record.size ((layout v).getD []) + CofbucketCounters.length r.bucketCounters

def fields (v : UInt8) (r : CofgroupStatsReply) : List ℕ :=
  [r.size v % 65536, r.groupId.toNat, r.refCount.toNat, r.packetCount.toNat, r.byteCount.toNat] ++
    if v = Openflow13.OFP_VERSION then [r.durationSec.toNat, r.durationNsec.toNat] else []

def pack (v : UInt8) (r : CofgroupStatsReply) (buf : List UInt8) (buflen : ℕ) : Unpacked (List UInt8) :=
  if buflen = 0 then .ok buf
  else
    match layout v with
    | none => raise .badVersion
    | some l =>
      if buflen < r.size v then raise .invalid
      else do
        let buf ← writeRecord l (r.fields v) buf
        let counters ← CofbucketCounters.pack r.bucketCounters (buf.drop (Record.size l))
          (CofbucketCounters.length r.bucketCounters)
        return buf.take (Record.size l) ++ counters

def unpack (v : UInt8) (r : CofgroupStatsReply) (buf : List UInt8) (buflen : ℕ) : Unpacked CofgroupStatsReply :=
  match layout v with
  | none => raise .badVersion
  | some l =>
    if buflen < Record.size l then raise .invalid
    else do
      let vs ← record l buf
      if buflen < vs.getD 0 0 then raise .invalid
      else
        -- what is left for the counters has 16 bits
        let length := (vs.getD 0 0 + 65536 - Record.size l) % 65536
        let counters ← loop CofbucketCounters.turn .empty (buf.drop (Record.size l)) length
        return { groupId := .ofNat (vs.getD 1 0), refCount := .ofNat (vs.getD 2 0), packetCount := .ofNat (vs.getD 3 0),
                 byteCount := .ofNat (vs.getD 4 0), bucketCounters := counters,
                 durationSec := if v = Openflow13.OFP_VERSION then .ofNat (vs.getD 5 0) else r.durationSec,
                 durationNsec := if v = Openflow13.OFP_VERSION then .ofNat (vs.getD 6 0) else r.durationNsec }

/-- What the version carries of an entry: the duration is not on the wire in 1.2. -/
def carried (v : UInt8) (r : CofgroupStatsReply) : CofgroupStatsReply :=
  if v = Openflow13.OFP_VERSION then r else { r with durationSec := 0, durationNsec := 0 }

end CofgroupStatsReply

/-! ## The array -/

/-- `cofgroupstatsarray`. -/
structure Cofgroupstatsarray where
  ofpVersion : UInt8
  array : Omap ℕ CofgroupStatsReply
deriving DecidableEq

namespace Cofgroupstatsarray

open CofgroupStatsReply

def length (x : Cofgroupstatsarray) : ℕ := (x.array.values.map (size x.ofpVersion)).sum

def pack (x : Cofgroupstatsarray) (buf : List UInt8) (buflen : ℕ) : Unpacked (List UInt8) :=
  if buflen = 0 then .ok buf
  else if (layout x.ofpVersion).isNone then raise .badVersion
  else if buflen < x.length then raise .invalid
  else packAll id (size x.ofpVersion) (fun r buf => r.pack x.ofpVersion buf (r.size x.ofpVersion)) 0 x.array.values buf

/-- An entry is put under the group it tells. An entry that is too short ends the loop. -/
def turn (v : UInt8) (l : Record.Layout) (buf : List UInt8) :
    Cursor.Turn (Omap ℕ CofgroupStatsReply) (Fault CodecException) := fun array c =>
  if c.left < Record.size l then .ok none
  else do
    let length ← numberAt buf c.off 2
    if length < Record.size l then return none
    else
      let groupId ← numberAt buf (c.off + 4) 4
      let r ← (new (.ofNat groupId)).unpack v (buf.drop c.off) length
      return some (array.insert groupId r, length)

/-- Into an array of the version. `none` where the loop does not end. -/
def unpack (v : UInt8) (buf : List UInt8) : Option (Unpacked Cofgroupstatsarray) :=
  match layout v with
  | none => some (raise .badRequestBadVersion)
  | some l => (Cursor.loop (turn v l buf) .empty buf).map fun r => r.map fun array => ⟨v, array⟩

end Cofgroupstatsarray

/-! ## Counters that were packed -/

namespace CofbucketCounters

/-- What is packed into the slot of a counter. -/
def image (e : CofbucketCounter × List UInt8) : List UInt8 := Record.write CofbucketCounter.layout e.1.fields e.2

theorem fits (c : CofbucketCounter) : Record.Fits CofbucketCounter.layout c.fields :=
  ⟨c.packetCount.toNat_lt, c.byteCount.toNat_lt, rfl⟩

theorem length_image {c : CofbucketCounter} {slot : List UInt8} (h : slot.length = 16) : (image (c, slot)).length = 16 := by
  rw [image, Record.length_write (fits c) h.ge, h]

theorem counter_pack_eq (c : CofbucketCounter) {buf : List UInt8} (h : 16 ≤ buf.length) :
    c.pack buf 16 = .ok (image (c, buf.take 16) ++ buf.drop 16) := by
  have hsize : Record.size CofbucketCounter.layout ≤ buf.length := h
  rw [CofbucketCounter.pack, if_neg (by omega), if_neg (Nat.lt_irrefl _), writeRecord_eq _ hsize]
  rfl

theorem counter_unpack_image (c : CofbucketCounter) {slot : List UInt8} (h : slot.length = 16) (rest : List UInt8) :
    CofbucketCounter.unpack (image (c, slot) ++ rest) 16 = .ok c := by
  have hsize : Record.size CofbucketCounter.layout ≤ slot.length := h.ge
  have himage : Record.size CofbucketCounter.layout ≤ (image (c, slot)).length := (length_image h).ge
  have hall : Record.size CofbucketCounter.layout ≤ (image (c, slot) ++ rest).length := by
    rw [List.length_append]
    omega
  have hread : Record.read CofbucketCounter.layout (image (c, slot) ++ rest) = c.fields := by
    rw [Record.read_append himage, image, Record.read_write (fits c) hsize]
  rw [CofbucketCounter.unpack, if_neg (Nat.lt_irrefl _), record_eq hall, hread]
  show Except.ok (⟨.ofNat c.packetCount.toNat, .ofNat c.byteCount.toNat⟩ : CofbucketCounter) = .ok c
  rw [UInt64.ofNat_toNat, UInt64.ofNat_toNat]

/-- What is packed of all of them. -/
def images (x : CofbucketCounters) (slot : List UInt8) : List UInt8 :=
  (Tlv.slots (fun _ => 16) x.values slot).flatMap image

theorem pack_eq (x : CofbucketCounters) {buf : List UInt8} (h : length x ≤ buf.length) :
    pack x buf (length x) = .ok (images x buf ++ buf.drop (length x)) := by
  have hall : packAll id (fun _ => 16) (fun c buf => c.pack buf 16) 0 x.values buf =
      (.ok (images x buf ++ buf.drop (length x)) : Unpacked (List UInt8)) :=
    packAll_start (fun _ _ => rfl) h (fun _ _ _ => length_image) fun c _ _ => counter_pack_eq c
  unfold pack
  split
  · next hzero =>
    have hnil : x.values = [] := by
      cases hvalues : x.values with
      | nil => rfl
      | cons c cs =>
        rw [length, hvalues, List.map_cons, List.sum_cons] at hzero
        omega
    rw [← hall, hnil]
    rfl
  · rw [if_neg (Nat.lt_irrefl _), hall]

theorem length_images {x : CofbucketCounters} {slot : List UInt8} (h : length x ≤ slot.length) :
    (images x slot).length = length x :=
  Tlv.length_flatMap_slots fun p hp => length_image (Tlv.length_slot h p hp)

theorem advances_turn : Advances turn := by
  intro x buf n x' m h
  unfold turn at h
  split at h
  · cases h
  · obtain ⟨c, _, h⟩ := Except.bind_eq_ok.mp h
    cases h
    omega

theorem turn_image (c : CofbucketCounter) {slot : List UInt8} (h : slot.length = 16) (x : CofbucketCounters)
    (rest : List UInt8) (n : ℕ) :
    turn x (image (c, slot) ++ rest) ((image (c, slot)).length + n) =
      .ok (some (x.insert x.size c, (image (c, slot)).length)) := by
  rw [length_image h, turn, if_neg (by omega), counter_unpack_image c h]
  rfl

/-- The counters are read back under ids that count from zero. -/
theorem loop_images {x : CofbucketCounters} {slot : List UInt8} (h : length x ≤ slot.length) (rest : List UInt8) :
    loop turn .empty (images x slot ++ rest) (length x) = .ok (.ofList x.values) := by
  have hencode := loop_encode advances_turn (fun p hp y rest n => turn_image p.1 (Tlv.length_slot h p hp) y rest n)
    (.empty : CofbucketCounters) rest 0
  have hfold : (Tlv.slots (fun _ => 16) x.values slot).foldl (fun (y : CofbucketCounters) p => y.insert y.size p.1)
      .empty = .ofList x.values := by
    have hmap := Omap.foldl_insert_size [] ((Tlv.slots (fun _ => 16) x.values slot).map Prod.fst)
    rw [Tlv.map_slots, List.nil_append] at hmap
    rw [← hmap, ← Tlv.map_slots x.values slot, List.foldl_map, Tlv.map_slots]
    rfl
  have hend : turn (.ofList x.values) rest 0 = .ok none := rfl
  rw [Nat.add_zero, show ((Tlv.slots (fun _ => 16) x.values slot).flatMap image).length = length x from length_images h,
    hfold, loop_end hend] at hencode
  exact hencode

end CofbucketCounters

/-! ## Entries that were packed -/

namespace CofgroupStatsReply

variable {v : UInt8} {l : Record.Layout} {r : CofgroupStatsReply}

theorem layout_eq (h : layout v = some l) :
    v = Openflow12.OFP_VERSION ∧ l = [.field 2, .pad 2, .field 4, .field 4, .pad 4, .field 8, .field 8] ∨
    v = Openflow13.OFP_VERSION ∧
      l = [.field 2, .pad 2, .field 4, .field 4, .pad 4, .field 8, .field 8, .field 4, .field 4] := by
  unfold layout at h
  split at h
  · next hv =>
    cases h
    exact .inl ⟨hv, rfl⟩
  · split at h
    · next hv =>
      cases h
      exact .inr ⟨hv, rfl⟩
    · cases h

theorem size_eq (h : layout v = some l) (r : CofgroupStatsReply) :
    r.size v = Record.size l + CofbucketCounters.length r.bucketCounters := by
  rw [size, h, Option.getD_some]

theorem size_pos (h : layout v = some l) : 32 ≤ Record.size l := by
  rcases layout_eq h with ⟨_, rfl⟩ | ⟨_, rfl⟩
  · exact Nat.le_refl 32
  · exact (by decide : 32 ≤ 40)

theorem fits (h : layout v = some l) (r : CofgroupStatsReply) : Record.Fits l (r.fields v) := by
  have hlen : r.size v % 65536 < 256 ^ 2 := Nat.mod_lt _ (by decide)
  rcases layout_eq h with ⟨rfl, rfl⟩ | ⟨rfl, rfl⟩
  · exact ⟨hlen, r.groupId.toNat_lt, r.refCount.toNat_lt, r.packetCount.toNat_lt, r.byteCount.toNat_lt, rfl⟩
  · exact ⟨hlen, r.groupId.toNat_lt, r.refCount.toNat_lt, r.packetCount.toNat_lt, r.byteCount.toNat_lt,
      r.durationSec.toNat_lt, r.durationNsec.toNat_lt, rfl⟩

/-- What is packed into the slot of an entry. -/
def image (v : UInt8) (l : Record.Layout) (e : CofgroupStatsReply × List UInt8) : List UInt8 :=
  Record.write l (e.1.fields v) (e.2.take (Record.size l)) ++
    CofbucketCounters.images e.1.bucketCounters (e.2.drop (Record.size l))

section

variable {slot : List UInt8} (hl : layout v = some l) (hslot : slot.length = r.size v)

include hl hslot

theorem length_header : (Record.write l (r.fields v) (slot.take (Record.size l))).length = Record.size l := by
  have hsize := size_eq hl r
  have htake : (slot.take (Record.size l)).length = Record.size l := List.length_take_of_le (by omega)
  rw [Record.length_write (fits hl r) htake.ge, htake]

theorem length_behind : (slot.drop (Record.size l)).length = CofbucketCounters.length r.bucketCounters := by
  have hsize := size_eq hl r
  rw [List.length_drop]
  omega

theorem length_image : (image v l (r, slot)).length = r.size v := by
  rw [image, List.length_append, length_header hl hslot, CofbucketCounters.length_images (length_behind hl hslot).ge,
    size_eq hl]

theorem read_image (rest : List UInt8) : Record.read l (image v l (r, slot) ++ rest) = r.fields v := by
  have hsize := size_eq hl r
  have htake : (slot.take (Record.size l)).length = Record.size l := List.length_take_of_le (by omega)
  rw [image, List.append_assoc, Record.read_append (length_header hl hslot).ge, Record.read_write (fits hl r) htake.ge]

/-- The length of an entry stands first. -/
theorem field_length_image (rest : List UInt8) : field (image v l (r, slot) ++ rest) 0 2 = r.size v % 65536 := by
  have hread := read_image hl hslot rest
  rcases layout_eq hl with ⟨rfl, rfl⟩ | ⟨rfl, rfl⟩
  · exact (List.cons.inj hread).1
  · exact (List.cons.inj hread).1

theorem field_groupId_image (rest : List UInt8) : field (image v l (r, slot) ++ rest) 4 4 = r.groupId.toNat := by
  have hread := read_image hl hslot rest
  rcases layout_eq hl with ⟨rfl, rfl⟩ | ⟨rfl, rfl⟩
  · have hsecond := (List.cons.inj (List.cons.inj hread).2).1
    rwa [List.drop_drop] at hsecond
  · have hsecond := (List.cons.inj (List.cons.inj hread).2).1
    rwa [List.drop_drop] at hsecond

end

theorem pack_eq (hl : layout v = some l) (r : CofgroupStatsReply) {buf : List UInt8} (h : r.size v ≤ buf.length) :
    r.pack v buf (r.size v) = .ok (image v l (r, buf.take (r.size v)) ++ buf.drop (r.size v)) := by
  have hsize := size_eq hl r
  have hpos := size_pos hl
  have hhdr := length_header hl (List.length_take_of_le h)
  have htake : (buf.take (r.size v)).take (Record.size l) = buf.take (Record.size l) := by
    rw [List.take_take, Nat.min_eq_left (by omega)]
  have hbehind : CofbucketCounters.length r.bucketCounters ≤ (buf.drop (Record.size l)).length := by
    rw [List.length_drop]
    omega
  have hcounters : ∀ buf : List UInt8,
      CofbucketCounters.images r.bucketCounters (buf.take (CofbucketCounters.length r.bucketCounters)) =
        CofbucketCounters.images r.bucketCounters buf := fun buf => by
    have hle : (r.bucketCounters.values.map fun _ => 16).sum ≤ CofbucketCounters.length r.bucketCounters :=
      Nat.le_refl _
    rw [CofbucketCounters.images, Tlv.slots_take hle, CofbucketCounters.images]
  rw [htake] at hhdr
  rw [pack, if_neg (by omega), hl]
  dsimp only
  rw [if_neg (Nat.lt_irrefl _)]
  show (writeRecord l (r.fields v) buf >>= _) = _
  rw [writeRecord_eq _ (by omega)]
  show (CofbucketCounters.pack r.bucketCounters ((Record.write l (r.fields v) (buf.take (Record.size l)) ++
    buf.drop (Record.size l)).drop (Record.size l)) _ >>= _) = _
  rw [List.drop_left' hhdr, CofbucketCounters.pack_eq _ hbehind]
  show Except.ok ((Record.write l (r.fields v) (buf.take (Record.size l)) ++ buf.drop (Record.size l)).take
    (Record.size l) ++ _) = _
  rw [List.take_left' hhdr, image, htake, List.drop_take, hsize, Nat.add_sub_cancel_left, hcounters,
    List.drop_drop, List.append_assoc]

theorem unpack_image (hl : layout v = some l) {slot : List UInt8} (hslot : slot.length = r.size v)
    (hlen : r.size v < 65536) (hids : r.bucketCounters.keys = List.range r.bucketCounters.size) (rest : List UInt8) :
    (new r.groupId).unpack v (image v l (r, slot) ++ rest) (r.size v) = .ok (r.carried v) := by
  have hsize := size_eq hl r
  have hcounters : (Omap.ofList r.bucketCounters.values : CofbucketCounters) = r.bucketCounters :=
    (Omap.eq_ofList_iff.mpr hids).symm
  have hall : Record.size l ≤ (image v l (r, slot) ++ rest).length := by
    rw [List.length_append, length_image hl hslot]
    omega
  have hfirst : (r.fields v).getD 0 0 = r.size v := by
    show r.size v % 65536 = r.size v
    exact Nat.mod_eq_of_lt hlen
  have hleft : (r.size v + 65536 - Record.size l) % 65536 = CofbucketCounters.length r.bucketCounters := by omega
  have hdrop : (image v l (r, slot) ++ rest).drop (Record.size l) =
      CofbucketCounters.images r.bucketCounters (slot.drop (Record.size l)) ++ rest := by
    rw [image, List.append_assoc, List.drop_left' (length_header hl hslot)]
  rw [unpack, hl]
  dsimp only
  rw [if_neg (by omega), record_eq hall, read_image hl hslot]
  show (if r.size v < (r.fields v).getD 0 0 then raise .invalid else
    loop CofbucketCounters.turn .empty ((image v l (r, slot) ++ rest).drop (Record.size l))
      (((r.fields v).getD 0 0 + 65536 - Record.size l) % 65536) >>= _) = _
  rw [hfirst, if_neg (Nat.lt_irrefl _), hleft, hdrop,
    CofbucketCounters.loop_images (length_behind hl hslot).ge, hcounters]
  show Except.ok _ = Except.ok _
  rcases layout_eq hl with ⟨rfl, rfl⟩ | ⟨rfl, rfl⟩
  · have hne : Openflow12.OFP_VERSION ≠ Openflow13.OFP_VERSION := by decide
    simp [carried, fields, new, hne]
  · simp [carried, fields]

end CofgroupStatsReply

/-! ## The array that was packed -/

namespace Cofgroupstatsarray

open CofgroupStatsReply

/-- Entries under the groups they tell, with counters under ids that count from zero. -/
structure Keyed (x : Cofgroupstatsarray) : Prop where
  groups : ∀ e ∈ x.array.entries, e.1 = e.2.groupId.toNat
  counters : ∀ e ∈ x.array.entries, e.2.bucketCounters.keys = List.range e.2.bucketCounters.size

/-- The loop over the buffer comes to this offset, and takes so many octets there. -/
def Consumes (v : UInt8) (buf : List UInt8) (off n : ℕ) : Prop :=
  ∃ l s s' left, layout v = some l ∧
    Relation.ReflTransGen (Cursor.Step (turn v l buf)) (.empty, Cursor.start buf) (s, ⟨off, left⟩) ∧
    turn v l buf s ⟨off, left⟩ = .ok (some (s', n))

/-- Packed into the buffer, the array comes back with what its version carries, and an
entry is as long as its length says, which is what the loop takes for it. -/
def ComesBack (x : Cofgroupstatsarray) (buf : List UInt8) : Prop :=
  ∃ chunks : List (List UInt8), x.pack buf x.length = .ok chunks.flatten ∧
    chunks.map List.length = x.array.values.map (size x.ofpVersion) ∧
    (∀ c ∈ chunks, field c 0 2 = c.length) ∧
    (∀ before c after, chunks = before ++ c :: after →
      Consumes x.ofpVersion chunks.flatten before.flatten.length c.length) ∧
    unpack x.ofpVersion chunks.flatten =
      some (.ok ⟨x.ofpVersion, x.array.map fun _ r => r.carried x.ofpVersion⟩)

variable {v : UInt8} {l : Record.Layout}

/-- An entry that was packed is taken into the array. -/
theorem turn_image (hl : layout v = some l) {r : CofgroupStatsReply} {slot : List UInt8} (hslot : slot.length = r.size v)
    (hlen : r.size v < 65536) (hids : r.bucketCounters.keys = List.range r.bucketCounters.size)
    (array : Omap ℕ CofgroupStatsReply) {buf before after : List UInt8}
    (hbuf : buf = before ++ (image v l (r, slot) ++ after)) :
    turn v l buf array ⟨before.length, (image v l (r, slot) ++ after).length⟩ =
      .ok (some (array.insert r.groupId.toNat (r.carried v), (image v l (r, slot)).length)) := by
  have hsize := size_eq hl r
  have hpos := size_pos hl
  have himage := length_image hl hslot
  have hall : (image v l (r, slot) ++ after).length = r.size v + after.length := by rw [List.length_append, himage]
  have htotal : buf.length = before.length + (r.size v + after.length) := by rw [hbuf, List.length_append, hall]
  have hlength : field buf before.length 2 = r.size v := by
    rw [hbuf, field_append_right (Nat.le_refl _), Nat.sub_self, field_length_image hl hslot, Nat.mod_eq_of_lt hlen]
  have hgroup : field buf (before.length + 4) 4 = r.groupId.toNat := by
    rw [hbuf, field_append_right (Nat.le_add_right _ _), Nat.add_sub_cancel_left, field_groupId_image hl hslot]
  have hdrop : buf.drop before.length = image v l (r, slot) ++ after := by rw [hbuf, List.drop_left]
  rw [turn, if_neg (by dsimp only; omega)]
  show (numberAt buf before.length 2 >>= _) = _
  rw [numberAt_eq (by omega), hlength]
  show (if r.size v < Record.size l then _ else numberAt buf (before.length + 4) 4 >>= _) = _
  rw [if_neg (by omega), numberAt_eq (by omega), hgroup]
  show ((new (.ofNat r.groupId.toNat)).unpack v (buf.drop before.length) (r.size v) >>= _) = _
  rw [UInt32.ofNat_toNat, hdrop, unpack_image hl hslot hlen hids, himage]
  rfl

end Cofgroupstatsarray
end RoflCommon
