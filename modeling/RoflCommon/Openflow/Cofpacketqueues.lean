/-
The configuration of queues: `cofpacket_queues`, `cofpacket_queue` and
`cofqueue_props`, a list of queues with a list of properties each.

The loop over the queues goes on as long as there is more left than the structure of a
queue, so that a last queue without properties is not read; the length of a queue has
16 bits; and in version 1.0 there is no port on the wire. Otherwise the queues come
back as they were (`CofpacketQueues.queues_roundTrip_iff`).
-/
import RoflCommon.Openflow.Coxmatch
import RoflCommon.Lib.Loop
import RoflCommon.Lib.Record
import RoflCommon.Lib.Store
import RoflCommon.Lib.Tlv
import Mathlib.Algebra.Order.BigOperators.Group.List

namespace RoflCommon

open Octets

def Openflow13.OFPQT_MIN_RATE : ℕ := 1
def Openflow13.OFPQT_MAX_RATE : ℕ := 2
def Openflow13.OFPQT_EXPERIMENTER : ℕ := 0xffff

/-- What is thrown, and a read behind the buffer. -/
inductive QueueException
  | inval
  | badVersion
  | overrun
deriving DecidableEq, Repr

/-! ## Properties -/

/-- The classes derived from `cofqueue_prop`. -/
inductive CofqueueProp
  | minRate (minRate : UInt16)
  | maxRate (maxRate : UInt16)
  | experimenter (expId : UInt32) (expBody : List UInt8)
deriving DecidableEq

namespace CofqueueProp

def property : CofqueueProp → ℕ
  | minRate _ => Openflow13.OFPQT_MIN_RATE
  | maxRate _ => Openflow13.OFPQT_MAX_RATE
  | experimenter _ _ => Openflow13.OFPQT_EXPERIMENTER

/-- `struct ofp_queue_prop_min_rate` and its siblings. -/
def layout : CofqueueProp → Record.Layout
  | minRate _ | maxRate _ => [.field 2, .field 2, .pad 4, .field 2, .pad 6]
  | experimenter _ _ => [.field 2, .field 2, .pad 4, .field 4, .pad 4]

def expBody : CofqueueProp → List UInt8
  | minRate _ | maxRate _ => []
  | experimenter _ expBody => expBody

def length (p : CofqueueProp) : ℕ := Record.size p.layout + p.expBody.length

/-- The rate, or the id of the experimenter. -/
def value : CofqueueProp → ℕ
  | minRate rate | maxRate rate => rate.toNat
  | experimenter expId _ => expId.toNat

def pack (p : CofqueueProp) (buf : List UInt8) : Except QueueException (List UInt8) :=
  if buf = [] then .ok buf
  else if buf.length < p.length then .error .inval
  else
    let hdr := Record.write p.layout [p.property, p.length % 65536, p.value] (buf.take (Record.size p.layout))
    .ok (hdr ++ p.expBody ++ buf.drop p.length)

/-- `cofqueue_prop_min_rate::unpack` and `cofqueue_prop_max_rate::unpack`. -/
def unpackRate (buf : List UInt8) : Except QueueException UInt16 :=
  if buf.length < 16 then .error .inval
  else if field buf 2 2 < 16 then .error .inval
  else .ok (.ofNat (field buf 8 2))

def unpackExperimenter (buf : List UInt8) : Except QueueException (UInt32 × List UInt8) :=
  if buf.length < 16 then .error .inval
  else
    let len := field buf 2 2
    if len < 8 then .error .inval
    else if buf.length < len then .error .inval
    -- the length of the body is unsigned
    else if len < 16 then .error .overrun
    else .ok (.ofNat (field buf 8 4), (buf.drop 16).take (len - 16))

end CofqueueProp

/-- `cofqueue_props`: at most one property of each kind. -/
structure CofqueueProps where
  minRate : Option UInt16
  maxRate : Option UInt16
  experimenter : Option (UInt32 × List UInt8)
deriving DecidableEq

namespace CofqueueProps

def empty : CofqueueProps := ⟨none, none, none⟩

/-- `add_queue_prop_*()`. -/
def add (x : CofqueueProps) : CofqueueProp → CofqueueProps
  | .minRate rate => { x with minRate := some rate }
  | .maxRate rate => { x with maxRate := some rate }
  | .experimenter expId expBody => { x with experimenter := some (expId, expBody) }

/-- In the order of the map. -/
def properties (x : CofqueueProps) : List CofqueueProp :=
  x.minRate.toList.map .minRate ++ x.maxRate.toList.map .maxRate ++
    x.experimenter.toList.map fun e => .experimenter e.1 e.2

def length (x : CofqueueProps) : ℕ := (x.properties.map CofqueueProp.length).sum

def pack (x : CofqueueProps) (buf : List UInt8) : Except QueueException (List UInt8) :=
  if buf = [] then .ok buf
  else if buf.length < x.length then .error .inval
  else Tlv.packAll CofqueueProp.length CofqueueProp.pack x.properties buf

/-- The loop goes on by the length of a property that is known, and by the length on the
wire behind one that is not. -/
def turn : Loop.Turn UInt8 CofqueueProps QueueException := fun x buf =>
  if buf.length < 8 then .ok none
  else
    let property := field buf 0 2
    let len := field buf 2 2
    if buf.length < len ∨ len = 0 then .error .inval
    else if property = Openflow13.OFPQT_MIN_RATE then do
      let p := CofqueueProp.minRate (← CofqueueProp.unpackRate (buf.take len))
      return some (x.add p, p.length)
    else if property = Openflow13.OFPQT_MAX_RATE then do
      let p := CofqueueProp.maxRate (← CofqueueProp.unpackRate (buf.take len))
      return some (x.add p, p.length)
    else if property = Openflow13.OFPQT_EXPERIMENTER then do
      let (expId, expBody) ← CofqueueProp.unpackExperimenter (buf.take len)
      let p := CofqueueProp.experimenter expId expBody
      return some (x.add p, p.length)
    else .ok (some (x, len))

/-- The properties are cleared first. -/
def unpack (buf : List UInt8) : Except QueueException CofqueueProps := Loop.loop turn empty buf

end CofqueueProps

/-! ## Queues -/

/-- `cofpacket_queue`. -/
structure CofpacketQueue where
  ofpVersion : UInt8
  portNo : UInt32
  queueId : UInt32
  queueProps : CofqueueProps
deriving DecidableEq

namespace CofpacketQueue

/-- `struct ofp_packet_queue`. -/
def layout (v : UInt8) : Option Record.Layout :=
  if v = Openflow10.OFP_VERSION then some [.field 4, .field 2, .pad 2]
  else if v = Openflow12.OFP_VERSION ∨ v = Openflow13.OFP_VERSION then some [.field 4, .field 4, .field 2, .pad 6]
  else none

/-- `length()`, in a version that is known. -/
def size (q : CofpacketQueue) : ℕ := Record.size ((layout q.ofpVersion).getD []) + q.queueProps.length

def fields (q : CofpacketQueue) : List ℕ :=
  if q.ofpVersion = Openflow10.OFP_VERSION then [q.queueId.toNat, q.size % 65536]
  else [q.queueId.toNat, q.portNo.toNat, q.size % 65536]

def pack (q : CofpacketQueue) (buf : List UInt8) : Except QueueException (List UInt8) :=
  if buf = [] then .ok buf
  else
    match layout q.ofpVersion with
    | none => .error .badVersion
    | some l =>
      if buf.length < q.size then .error .inval
      else do
        let hdr := Record.write l q.fields (buf.take (Record.size l))
        let props ← q.queueProps.pack ((buf.drop (Record.size l)).take q.queueProps.length)
        return hdr ++ props ++ buf.drop q.size

/-- The length of a queue on the wire. -/
def lengthField (v : UInt8) (buf : List UInt8) : ℕ :=
  if v = Openflow10.OFP_VERSION then field buf 4 2 else field buf 8 2

def unpack (q : CofpacketQueue) (buf : List UInt8) : Except QueueException CofpacketQueue :=
  if buf = [] then .ok q
  else
    match layout q.ofpVersion with
    | none => .error .badVersion
    | some l =>
      if buf.length < Record.size l then .error .inval
      else
        let len := lengthField q.ofpVersion buf
        if buf.length < len then .error .inval
        -- what is left for the properties is unsigned
        else if len < Record.size l then .error .overrun
        else do
          let props ← CofqueueProps.unpack ((buf.drop (Record.size l)).take (len - Record.size l))
          return { q with queueId := .ofNat (field buf 0 4), queueProps := props,
                          portNo := if q.ofpVersion = Openflow10.OFP_VERSION then q.portNo else .ofNat (field buf 4 4) }

end CofpacketQueue

/-- `cofpacket_queues`: queues by port and number. -/
structure CofpacketQueues where
  ofpVersion : UInt8
  pqueues : Omap ℕ (Omap ℕ CofpacketQueue)

namespace CofpacketQueues

def new (ofpVersion : UInt8) : CofpacketQueues := ⟨ofpVersion, .empty⟩

def size (x : CofpacketQueues) : ℕ := (x.pqueues.entries₂.map fun e => e.2.size).sum

/-- `length()` throws for a queue of no version. -/
def length (x : CofpacketQueues) : Except QueueException ℕ :=
  if ∀ e ∈ x.pqueues.entries₂, (CofpacketQueue.layout e.2.ofpVersion).isSome then .ok x.size else .error .badVersion

def pack (x : CofpacketQueues) (buf : List UInt8) : Except QueueException (List UInt8) :=
  if buf = [] then .ok buf
  else do
    let length ← x.length
    if buf.length < length then throw .inval
    else if (CofpacketQueue.layout x.ofpVersion).isNone then throw .badVersion
    else Tlv.packAll (fun e => e.2.size) (fun e => e.2.pack) x.pqueues.entries₂ buf

/-- The port and the queue a queue is added under. In 1.0 all of them are under port 0. -/
def key (v : UInt8) (buf : List UInt8) : ℕ × ℕ :=
  (if v = Openflow10.OFP_VERSION then 0 else field buf 4 4, field buf 0 4)

/-- The loop goes on while there is more left than the structure of a queue. -/
def turn (v : UInt8) (n : ℕ) : Loop.Turn UInt8 (Omap ℕ (Omap ℕ CofpacketQueue)) QueueException := fun x buf =>
  if buf.length ≤ n then .ok none
  else
    let len := CofpacketQueue.lengthField v buf
    if buf.length < len ∨ len = 0 then .ok none
    else do
      let k := key v buf
      let q ← CofpacketQueue.unpack ⟨v, .ofNat k.1, .ofNat k.2, .empty⟩ (buf.take len)
      return some (x.insert₂ k q, len)

def unpack (x : CofpacketQueues) (buf : List UInt8) : Except QueueException CofpacketQueues :=
  if buf = [] then .ok x
  else
    match CofpacketQueue.layout x.ofpVersion with
    | none => .error .badVersion
    | some l => do return { x with pqueues := ← Loop.loop (turn x.ofpVersion (Record.size l)) .empty buf }

/-- Packed into the buffer, the queues are unpacked to the same ones by a new object. -/
def RoundTrips (x : CofpacketQueues) (buf : List UInt8) : Prop :=
  ∃ buf' y, x.pack buf = .ok buf' ∧ (new x.ofpVersion).unpack buf' = .ok y ∧
    ∀ k, y.pqueues.find₂ k = x.pqueues.find₂ k

/-- A queue that is on the wire as it is: of the version, under its own numbers and, in
1.0, port 0, and of a length that has 16 bits. -/
structure OnWire (v : UInt8) (e : (ℕ × ℕ) × CofpacketQueue) : Prop where
  version : e.2.ofpVersion = v
  key : e.1 = (e.2.portNo.toNat, e.2.queueId.toNat)
  port10 : v = Openflow10.OFP_VERSION → e.1.1 = 0
  size : e.2.size < 65536

/-- Every queue is on the wire as it is, and the last one has a property. -/
structure Kept (x : CofpacketQueues) : Prop where
  queues : ∀ e ∈ x.pqueues.entries₂, OnWire x.ofpVersion e
  last : ∀ e ∈ x.pqueues.entries₂.getLast?, e.2.queueProps.properties ≠ []

end CofpacketQueues

/-! ## Properties that were packed -/

namespace CofqueueProp

theorem size_layout (p : CofqueueProp) : Record.size p.layout = 16 := by
  cases p <;> rfl

theorem sixteen_le_length (p : CofqueueProp) : 16 ≤ p.length := by
  have hsize := p.size_layout
  unfold length
  omega

/-- What is written into the slot of a property. -/
def image (e : CofqueueProp × List UInt8) : List UInt8 :=
  Record.write e.1.layout [e.1.property, e.1.length % 65536, e.1.value] (e.2.take 16) ++ e.1.expBody

theorem fits (p : CofqueueProp) : Record.Fits p.layout [p.property, p.length % 65536, p.value] := by
  have hproperty : p.property < 65536 := by
    cases p with
    | minRate rate => exact (by decide : Openflow13.OFPQT_MIN_RATE < 65536)
    | maxRate rate => exact (by decide : Openflow13.OFPQT_MAX_RATE < 65536)
    | experimenter expId expBody => exact (by decide : Openflow13.OFPQT_EXPERIMENTER < 65536)
  have hlen : p.length % 65536 < 256 ^ 2 := Nat.mod_lt _ (by decide)
  cases p with
  | minRate rate => exact ⟨hproperty, hlen, rate.toNat_lt, rfl⟩
  | maxRate rate => exact ⟨hproperty, hlen, rate.toNat_lt, rfl⟩
  | experimenter expId expBody => exact ⟨hproperty, hlen, expId.toNat_lt, rfl⟩

section

variable {e : CofqueueProp × List UInt8} (he : e.2.length = e.1.length)

include he

theorem length_hdr :
    (Record.write e.1.layout [e.1.property, e.1.length % 65536, e.1.value] (e.2.take 16)).length = 16 := by
  have htake : (e.2.take 16).length = 16 := List.length_take_of_le (by rw [he]; exact e.1.sixteen_le_length)
  rw [Record.length_write e.1.fits (by rw [size_layout, htake]), htake]

theorem length_image : (image e).length = e.1.length := by
  rw [image, List.length_append, length_hdr he, length, size_layout]

theorem pack_eq : e.1.pack e.2 = .ok (image e) := by
  have hle := e.1.sixteen_le_length
  have hne : e.2 ≠ [] := List.ne_nil_of_length_pos (by omega)
  rw [pack, if_neg hne, if_neg (by omega)]
  dsimp only
  rw [List.drop_eq_nil_of_le he.le, List.append_nil, size_layout, image]

theorem read_image (h : e.1.length < 65536) (rest : List UInt8) :
    Record.read e.1.layout (image e ++ rest) = [e.1.property, e.1.length, e.1.value] := by
  have htake : (e.2.take 16).length = 16 := List.length_take_of_le (by rw [he]; exact e.1.sixteen_le_length)
  rw [image, List.append_assoc, Record.read_append (by rw [size_layout, length_hdr he]),
    Record.read_write e.1.fits (by rw [size_layout, htake]), Nat.mod_eq_of_lt h]

theorem field_property (h : e.1.length < 65536) (rest : List UInt8) : field (image e ++ rest) 0 2 = e.1.property := by
  have hread := read_image he h rest
  obtain ⟨p, slot⟩ := e
  cases p <;> exact (List.cons.inj hread).1

theorem field_length (h : e.1.length < 65536) (rest : List UInt8) : field (image e ++ rest) 2 2 = e.1.length := by
  have hread := read_image he h rest
  obtain ⟨p, slot⟩ := e
  cases p <;> exact (List.cons.inj (List.cons.inj hread).2).1

/-- A property in front of the rest is added, and the loop goes on behind it. -/
theorem turn_image (h : e.1.length < 65536) (x : CofqueueProps) (rest : List UInt8) :
    CofqueueProps.turn x (image e ++ rest) = .ok (some (x.add e.1, (image e).length)) := by
  have hle := e.1.sixteen_le_length
  have hlength := length_image he
  have hlen : (image e ++ rest).length = e.1.length + rest.length := by rw [List.length_append, hlength]
  have htake : (image e ++ rest).take e.1.length = image e := List.take_left' hlength
  have hfield : field (image e) 2 2 = e.1.length := by
    have := field_length he h []
    rwa [List.append_nil] at this
  have hread : Record.read e.1.layout (image e) = [e.1.property, e.1.length, e.1.value] := by
    have := read_image he h []
    rwa [List.append_nil] at this
  have hbody : ((image e).drop 16).take (e.1.length - 16) = e.1.expBody := by
    rw [image, List.drop_left' (length_hdr he)]
    exact List.take_of_length_le (by rw [length, size_layout]; omega)
  rw [CofqueueProps.turn, if_neg (by omega), field_property he h rest, field_length he h rest]
  dsimp only
  rw [if_neg (by omega), htake]
  obtain ⟨p, slot⟩ := e
  cases p with
  | minRate rate =>
    have hvalue : field (image (minRate rate, slot)) 8 2 = rate.toNat := by
      have hthird := (List.cons.inj (List.cons.inj (List.cons.inj hread).2).2).1
      rwa [List.drop_drop, List.drop_drop] at hthird
    have hunpack : unpackRate (image (minRate rate, slot)) = .ok rate := by
      rw [unpackRate, if_neg (by omega), hfield, if_neg (by omega), hvalue, UInt16.ofNat_toNat]
    have hproperty : (minRate rate, slot).1.property = Openflow13.OFPQT_MIN_RATE := rfl
    rw [if_pos hproperty, hunpack, hlength]
    rfl
  | maxRate rate =>
    have hvalue : field (image (maxRate rate, slot)) 8 2 = rate.toNat := by
      have hthird := (List.cons.inj (List.cons.inj (List.cons.inj hread).2).2).1
      rwa [List.drop_drop, List.drop_drop] at hthird
    have hunpack : unpackRate (image (maxRate rate, slot)) = .ok rate := by
      rw [unpackRate, if_neg (by omega), hfield, if_neg (by omega), hvalue, UInt16.ofNat_toNat]
    have hproperty : (maxRate rate, slot).1.property = Openflow13.OFPQT_MAX_RATE := rfl
    rw [hproperty, if_neg (by decide), if_pos rfl, hunpack, hlength]
    rfl
  | experimenter expId expBody =>
    have hvalue : field (image (experimenter expId expBody, slot)) 8 4 = expId.toNat := by
      have hthird := (List.cons.inj (List.cons.inj (List.cons.inj hread).2).2).1
      rwa [List.drop_drop, List.drop_drop] at hthird
    have hunpack : unpackExperimenter (image (experimenter expId expBody, slot)) = .ok (expId, expBody) := by
      rw [unpackExperimenter, if_neg (by omega), hfield]
      dsimp only at hlength hle ⊢
      rw [if_neg (by omega), if_neg (by omega), if_neg (by omega), hvalue, hbody, UInt32.ofNat_toNat]
      rfl
    have hproperty : (experimenter expId expBody, slot).1.property = Openflow13.OFPQT_EXPERIMENTER := rfl
    rw [hproperty, if_neg (by decide), if_neg (by decide), if_pos rfl, hunpack, hlength]
    rfl

end

theorem unpackRate_ok {buf : List UInt8} {rate : UInt16} (h : unpackRate buf = .ok rate) : 16 ≤ buf.length := by
  unfold unpackRate at h
  split at h
  · cases h
  · omega

theorem unpackExperimenter_ok {buf : List UInt8} {e : UInt32 × List UInt8} (h : unpackExperimenter buf = .ok e) :
    (experimenter e.1 e.2).length ≤ buf.length := by
  unfold unpackExperimenter at h
  dsimp only at h
  split_ifs at h with hshort hlen hfield hbody
  cases h
  have hsize : (experimenter (.ofNat (field buf 8 4)) ((buf.drop 16).take (field buf 2 2 - 16))).length =
      16 + ((buf.drop 16).take (field buf 2 2 - 16)).length := rfl
  rw [hsize, List.length_take, List.length_drop]
  omega

end CofqueueProp

namespace CofqueueProps

/-- What a turn of the loop does: a property that is in the buffer is added, or something
is skipped. -/
theorem turn_ok {x x' : CofqueueProps} {buf : List UInt8} {k : ℕ} (h : turn x buf = .ok (some (x', k))) :
    (∃ p : CofqueueProp, x' = x.add p ∧ k = p.length ∧ p.length ≤ buf.length) ∨ x' = x ∧ 0 < k ∧ k ≤ buf.length := by
  have htake : ∀ n, (buf.take n).length ≤ buf.length := fun n => List.length_take_le' n buf
  unfold turn at h
  split at h
  · cases h
  dsimp only at h
  split at h
  · cases h
  split at h
  · obtain ⟨rate, hrate, h⟩ := Except.bind_eq_ok.mp h
    cases h
    exact .inl ⟨.minRate rate, rfl, rfl, (CofqueueProp.unpackRate_ok hrate).trans (htake _)⟩
  split at h
  · obtain ⟨rate, hrate, h⟩ := Except.bind_eq_ok.mp h
    cases h
    exact .inl ⟨.maxRate rate, rfl, rfl, (CofqueueProp.unpackRate_ok hrate).trans (htake _)⟩
  split at h
  · obtain ⟨e, he, h⟩ := Except.bind_eq_ok.mp h
    cases h
    exact .inl ⟨.experimenter e.1 e.2, rfl, rfl, (CofqueueProp.unpackExperimenter_ok he).trans (htake _)⟩
  · cases h
    exact .inr ⟨rfl, by omega, by omega⟩

theorem advances_turn : Loop.Advances turn := by
  intro x buf x' k h
  rcases turn_ok h with ⟨p, -, rfl, hle⟩ | ⟨-, hpos, hle⟩
  · exact ⟨Nat.lt_of_lt_of_le (by decide) p.sixteen_le_length, hle⟩
  · exact ⟨hpos, hle⟩

theorem length_add (x : CofqueueProps) (p : CofqueueProp) : (x.add p).length ≤ x.length + p.length := by
  obtain ⟨minRate, maxRate, experimenter⟩ := x
  cases p <;> cases minRate <;> cases maxRate <;> cases experimenter <;>
    simp only [add, length, properties, Option.toList, List.map_nil, List.map_cons, List.nil_append, List.cons_append,
      List.sum_nil, List.sum_cons] <;> omega

/-- There is no more in properties that are unpacked than in what they are unpacked from. -/
theorem length_unpack {buf : List UInt8} {x : CofqueueProps} (h : unpack buf = .ok x) : x.length ≤ buf.length := by
  have hstep : ∀ (x : CofqueueProps) l x' k, x.length + l.length ≤ buf.length → turn x l = .ok (some (x', k)) →
      x'.length + (l.length - k) ≤ buf.length := fun x l x' k hle h => by
    rcases turn_ok h with ⟨p, rfl, rfl, hp⟩ | ⟨rfl, -, -⟩
    · have hadd := x.length_add p
      omega
    · omega
  have hempty : empty.length = 0 := rfl
  obtain ⟨n, hn⟩ := Loop.loop_rule (P := fun x n => x.length + n ≤ buf.length) hstep (by omega) h
  omega

theorem length_eq_zero {x : CofqueueProps} : x.length = 0 ↔ x.properties = [] := by
  unfold length
  cases x.properties with
  | nil => simp
  | cons p ps =>
    have hle := p.sixteen_le_length
    simp only [List.map_cons, List.sum_cons, reduceCtorEq, iff_false]
    omega

theorem foldl_add (x : CofqueueProps) : x.properties.foldl add empty = x := by
  obtain ⟨minRate, maxRate, experimenter⟩ := x
  cases minRate <;> cases maxRate <;> cases experimenter <;> rfl

/-- The properties with their slots. -/
def slots (x : CofqueueProps) (buf : List UInt8) : List (CofqueueProp × List UInt8) :=
  Tlv.slots CofqueueProp.length x.properties buf

theorem map_slots (x : CofqueueProps) (buf : List UInt8) : (x.slots buf).map Prod.fst = x.properties :=
  Tlv.map_slots _ buf

theorem mem_of_mem_slots {x : CofqueueProps} {buf : List UInt8} {e : CofqueueProp × List UInt8} (he : e ∈ x.slots buf) :
    e.1 ∈ x.properties := by
  rw [← x.map_slots buf]
  exact List.mem_map_of_mem he

def image (x : CofqueueProps) (buf : List UInt8) : List UInt8 := (x.slots buf).flatMap CofqueueProp.image

section

variable {x : CofqueueProps} {buf : List UInt8} (hbuf : buf.length = x.length)

include hbuf

theorem length_slot {e : CofqueueProp × List UInt8} (he : e ∈ x.slots buf) : e.2.length = e.1.length :=
  Tlv.length_slot hbuf.ge e he

theorem pack_eq : x.pack buf = .ok (x.image buf) := by
  have hpack : Tlv.packAll CofqueueProp.length CofqueueProp.pack x.properties buf = .ok (x.image buf) :=
    Tlv.packAll_eq hbuf.le fun e he => CofqueueProp.pack_eq (length_slot hbuf he)
  unfold pack
  split
  · next hnil =>
    have hslots : x.properties = [] := length_eq_zero.mp (by rw [← hbuf, hnil, List.length_nil])
    rw [hnil, image, slots, hslots]
    rfl
  · rw [if_neg (by omega), hpack]

theorem unpack_image (h : x.length < 65536) : unpack (x.image buf) = .ok x := by
  have hlength : ∀ e ∈ x.slots buf, e.1.length < 65536 := fun e he =>
    (List.le_sum_of_mem (List.mem_map_of_mem (mem_of_mem_slots he))).trans_lt h
  have hloop : Loop.loop turn empty (x.image buf ++ []) =
      Loop.loop turn ((x.slots buf).foldl (fun y e => y.add e.1) empty) [] :=
    Loop.loop_encode advances_turn (P := fun _ => True) (fun _ _ _ _ => trivial)
      (fun e he y rest _ => CofqueueProp.turn_image (length_slot hbuf he) (hlength e he) y rest) empty trivial
  have hfold : (x.slots buf).foldl (fun y e => y.add e.1) empty = x := by
    have hmap : (x.slots buf).foldl (fun y e => y.add e.1) empty = ((x.slots buf).map Prod.fst).foldl add empty :=
      List.foldl_map.symm
    rw [hmap, map_slots, foldl_add]
  have hend : turn x [] = .ok none := rfl
  rw [List.append_nil, hfold, Loop.loop_end hend] at hloop
  exact hloop

theorem length_image : (x.image buf).length = x.length := by
  have hlength : ∀ e ∈ x.slots buf, (CofqueueProp.image e).length = CofqueueProp.length e.1 := fun e he =>
    CofqueueProp.length_image (length_slot hbuf he)
  rw [image, List.length_flatMap, List.map_congr_left hlength, length, ← x.map_slots buf, List.map_map]
  rfl

end

end CofqueueProps

/-! ## Queues that were packed -/

namespace CofpacketQueue

/-- What is written into the slot of a queue. -/
def image (l : Record.Layout) (q : CofpacketQueue) (slot : List UInt8) : List UInt8 :=
  Record.write l q.fields (slot.take (Record.size l)) ++
    q.queueProps.image ((slot.drop (Record.size l)).take q.queueProps.length)

theorem fits {q : CofpacketQueue} {l : Record.Layout} (hl : layout q.ofpVersion = some l) : Record.Fits l q.fields := by
  have hlen : q.size % 65536 < 256 ^ 2 := Nat.mod_lt _ (by decide)
  unfold layout at hl
  unfold fields
  split_ifs at hl ⊢ with h10 h13
  · cases hl
    exact ⟨q.queueId.toNat_lt, hlen, rfl⟩
  · cases hl
    exact ⟨q.queueId.toNat_lt, q.portNo.toNat_lt, hlen, rfl⟩

theorem size_pos_layout {v : UInt8} {l : Record.Layout} (hl : layout v = some l) : 8 ≤ Record.size l := by
  unfold layout at hl
  split_ifs at hl <;> cases hl <;> decide

section

variable {q : CofpacketQueue} {l : Record.Layout} {slot : List UInt8} (hl : layout q.ofpVersion = some l)
  (hslot : slot.length = q.size)

include hl

theorem size_eq : q.size = Record.size l + q.queueProps.length := by
  rw [size, hl, Option.getD_some]

include hslot

theorem length_hdr : (Record.write l q.fields (slot.take (Record.size l))).length = Record.size l := by
  have hsize := size_eq hl
  have htake : (slot.take (Record.size l)).length = Record.size l := List.length_take_of_le (by omega)
  rw [Record.length_write (fits hl) htake.ge, htake]

theorem length_props : ((slot.drop (Record.size l)).take q.queueProps.length).length = q.queueProps.length := by
  have hsize := size_eq hl
  refine List.length_take_of_le ?_
  rw [List.length_drop]
  omega

theorem length_image : (q.image l slot).length = q.size := by
  rw [image, List.length_append, length_hdr hl hslot, CofqueueProps.length_image (length_props hl hslot), size_eq hl]

theorem pack_eq : q.pack slot = .ok (q.image l slot) := by
  have hsize := size_eq hl
  have hle := size_pos_layout hl
  have hne : slot ≠ [] := List.ne_nil_of_length_pos (by omega)
  rw [pack, if_neg hne, hl]
  dsimp only
  rw [if_neg (by omega), CofqueueProps.pack_eq (length_props hl hslot), List.drop_eq_nil_of_le hslot.le]
  show Except.ok (_ ++ _ ++ []) = _
  rw [List.append_nil, image]

theorem read_image (rest : List UInt8) : Record.read l (q.image l slot ++ rest) = q.fields := by
  have hsize := size_eq hl
  have htake : (slot.take (Record.size l)).length = Record.size l := List.length_take_of_le (by omega)
  rw [image, List.append_assoc, Record.read_append (length_hdr hl hslot).ge, Record.read_write (fits hl) htake.ge]

theorem lengthField_image (h : q.size < 65536) (rest : List UInt8) :
    lengthField q.ofpVersion (q.image l slot ++ rest) = q.size := by
  have hread := read_image hl hslot rest
  unfold lengthField
  unfold layout at hl
  unfold fields at hread
  split_ifs at hl hread ⊢ with h10 h13
  · cases hl
    exact (List.cons.inj (List.cons.inj hread).2).1.trans (Nat.mod_eq_of_lt h)
  · cases hl
    have hthird := (List.cons.inj (List.cons.inj (List.cons.inj hread).2).2).1
    rw [List.drop_drop, Nat.mod_eq_of_lt h] at hthird
    exact hthird

theorem field_queueId (rest : List UInt8) : field (q.image l slot ++ rest) 0 4 = q.queueId.toNat := by
  have hread := read_image hl hslot rest
  unfold layout at hl
  unfold fields at hread
  split_ifs at hl hread with h10 h13
  · cases hl
    exact (List.cons.inj hread).1
  · cases hl
    exact (List.cons.inj hread).1

theorem field_portNo (h10 : q.ofpVersion ≠ Openflow10.OFP_VERSION) (rest : List UInt8) :
    field (q.image l slot ++ rest) 4 4 = q.portNo.toNat := by
  have hread := read_image hl hslot rest
  unfold layout at hl
  unfold fields at hread
  rw [if_neg h10] at hl hread
  split_ifs at hl with h13
  cases hl
  exact (List.cons.inj (List.cons.inj hread).2).1

/-- A queue is read back into a new object for its numbers. -/
theorem unpack_image (h : q.size < 65536) :
    unpack ⟨q.ofpVersion, q.portNo, q.queueId, .empty⟩ (q.image l slot) = .ok q := by
  have hsize := size_eq hl
  have hle := size_pos_layout hl
  have hlen := length_image hl hslot
  have hfield := lengthField_image hl hslot h []
  have hqueue := field_queueId hl hslot []
  rw [List.append_nil] at hfield hqueue
  have hne : q.image l slot ≠ [] := List.ne_nil_of_length_pos (by omega)
  have hprops : ((q.image l slot).drop (Record.size l)).take (q.size - Record.size l) =
      q.queueProps.image ((slot.drop (Record.size l)).take q.queueProps.length) := by
    rw [image, List.drop_left' (length_hdr hl hslot)]
    refine List.take_of_length_le ?_
    rw [CofqueueProps.length_image (length_props hl hslot)]
    omega
  have hport : (if q.ofpVersion = Openflow10.OFP_VERSION then q.portNo else .ofNat (field (q.image l slot) 4 4)) =
      q.portNo := by
    split
    · rfl
    · next h10 =>
      have hread := field_portNo hl hslot h10 []
      rw [List.append_nil] at hread
      rw [hread, UInt32.ofNat_toNat]
  rw [unpack, if_neg hne]
  dsimp only
  rw [hl]
  dsimp only
  rw [if_neg (by omega), hfield, if_neg (by omega), if_neg (by omega), hprops,
    CofqueueProps.unpack_image (length_props hl hslot) (by omega)]
  show Except.ok (CofpacketQueue.mk _ _ _ _) = _
  rw [hport, hqueue, UInt32.ofNat_toNat]

end

/-- What a queue says that is unpacked by a new object. -/
theorem unpack_ok {v : UInt8} {l : Record.Layout} (hl : layout v = some l) {portNo queueId : UInt32} {buf : List UInt8}
    (hbuf : buf ≠ []) {q : CofpacketQueue} (h : unpack ⟨v, portNo, queueId, .empty⟩ buf = .ok q) :
    Record.size l ≤ buf.length ∧ q.ofpVersion = v ∧ q.queueId = .ofNat (field buf 0 4) ∧
      q.portNo = (if v = Openflow10.OFP_VERSION then portNo else .ofNat (field buf 4 4)) ∧ q.size ≤ buf.length := by
  rw [unpack, if_neg hbuf] at h
  dsimp only at h
  rw [hl] at h
  dsimp only at h
  split at h
  · cases h
  split at h
  · cases h
  split at h
  · cases h
  obtain ⟨props, hprops, h⟩ := Except.bind_eq_ok.mp h
  cases h
  have hle := CofqueueProps.length_unpack hprops
  have htake := List.length_take_le (lengthField v buf - Record.size l) (buf.drop (Record.size l))
  refine ⟨by omega, rfl, rfl, rfl, ?_⟩
  rw [size, hl, Option.getD_some]
  dsimp only
  omega

end CofpacketQueue

namespace CofpacketQueues

/-- What a turn of the loop does: a queue is added under the numbers it has. -/
theorem turn_ok {v : UInt8} {l : Record.Layout} (hl : CofpacketQueue.layout v = some l)
    {x x' : Omap ℕ (Omap ℕ CofpacketQueue)} {buf : List UInt8} {k : ℕ}
    (h : turn v (Record.size l) x buf = .ok (some (x', k))) :
    0 < k ∧ k ≤ buf.length ∧ ∃ e, x' = x.insert₂ e.1 e.2 ∧ OnWire v e := by
  have height := CofpacketQueue.size_pos_layout hl
  unfold turn at h
  split at h
  · cases h
  next hlong =>
  dsimp only at h
  split at h
  · cases h
  next hlen =>
  obtain ⟨q, hq, h⟩ := Except.bind_eq_ok.mp h
  cases h
  have hlength : (buf.take (CofpacketQueue.lengthField v buf)).length = CofpacketQueue.lengthField v buf :=
    List.length_take_of_le (by omega)
  have hne : buf.take (CofpacketQueue.lengthField v buf) ≠ [] := List.ne_nil_of_length_pos (by omega)
  obtain ⟨hle, hversion, hqueue, hport, hsize⟩ := CofpacketQueue.unpack_ok hl hne hq
  have hlt : CofpacketQueue.lengthField v buf < 65536 := by
    unfold CofpacketQueue.lengthField
    split <;> exact field_lt _ _ _
  rw [hlength] at hle hsize
  rw [field_take (by omega)] at hqueue hport
  refine ⟨by omega, by omega, ⟨key v buf, q⟩, rfl, ⟨hversion, Prod.ext ?_ ?_, fun h10 => if_pos h10, hsize.trans_lt hlt⟩⟩
  · rw [hport]
    unfold key
    split
    · rfl
    · exact (UInt32.toNat_ofNat_of_lt' (field_lt buf 4 4)).symm
  · rw [hqueue]
    exact (UInt32.toNat_ofNat_of_lt' (field_lt buf 0 4)).symm

theorem advances_turn {v : UInt8} {l : Record.Layout} (hl : CofpacketQueue.layout v = some l) :
    Loop.Advances (turn v (Record.size l)) := fun _ _ _ _ h => ⟨(turn_ok hl h).1, (turn_ok hl h).2.1⟩

/-- Whatever is unpacked is on the wire as it is. -/
theorem onWire_of_loop {v : UInt8} {l : Record.Layout} (hl : CofpacketQueue.layout v = some l) {buf : List UInt8}
    {x : Omap ℕ (Omap ℕ CofpacketQueue)} (h : Loop.loop (turn v (Record.size l)) .empty buf = .ok x) {k : ℕ × ℕ}
    {q : CofpacketQueue} (hfind : x.find₂ k = some q) : OnWire v (k, q) := by
  have hstep : ∀ (x : Omap ℕ (Omap ℕ CofpacketQueue)) buf x' n, (∀ k q, x.find₂ k = some q → OnWire v (k, q)) →
      turn v (Record.size l) x buf = .ok (some (x', n)) → ∀ k q, x'.find₂ k = some q → OnWire v (k, q) :=
    fun x buf x' n hx hturn k q hfind => by
      obtain ⟨-, -, e, rfl, he⟩ := turn_ok hl hturn
      rw [Omap.find₂_insert₂] at hfind
      split at hfind
      · next hk =>
        cases hfind
        exact hk ▸ he
      · exact hx k q hfind
  obtain ⟨-, hend⟩ := Loop.loop_rule (P := fun x _ => ∀ k q, x.find₂ k = some q → OnWire v (k, q)) hstep
    (fun k q hfind => by cases hfind) h
  exact hend k q hfind

section

variable {v : UInt8} {l : Record.Layout} (hl : CofpacketQueue.layout v = some l)

include hl

/-- A queue with something behind its structure, in front of the rest. -/
theorem turn_image {e : (ℕ × ℕ) × CofpacketQueue} (he : OnWire v e) {slot : List UInt8} (hslot : slot.length = e.2.size)
    {rest : List UInt8} (hlong : Record.size l < e.2.size + rest.length) (x : Omap ℕ (Omap ℕ CofpacketQueue)) :
    turn v (Record.size l) x (e.2.image l slot ++ rest) =
      .ok (some (x.insert₂ e.1 e.2, (e.2.image l slot).length)) := by
  obtain ⟨⟨port, queue⟩, q⟩ := e
  obtain ⟨hversion, hkey, h10, hsize⟩ := he
  dsimp only at hversion hkey h10 hsize hslot hlong ⊢
  rw [← hversion] at hl
  have hsplit := CofpacketQueue.size_eq hl
  have hle := CofpacketQueue.size_pos_layout hl
  have hlength := CofpacketQueue.length_image hl hslot
  have hlen : (q.image l slot ++ rest).length = q.size + rest.length := by rw [List.length_append, hlength]
  have htake : (q.image l slot ++ rest).take q.size = q.image l slot := List.take_left' hlength
  have hfield : CofpacketQueue.lengthField v (q.image l slot ++ rest) = q.size := by
    rw [← hversion]
    exact CofpacketQueue.lengthField_image hl hslot hsize rest
  have hread : key v (q.image l slot ++ rest) = (q.portNo.toNat, q.queueId.toNat) := by
    rw [key, CofpacketQueue.field_queueId hl hslot]
    split
    · next hv =>
      rw [← (Prod.mk.inj hkey).1, h10 hv]
    · next hv =>
      rw [CofpacketQueue.field_portNo hl hslot (hversion ▸ hv)]
  have hunpack := CofpacketQueue.unpack_image hl hslot hsize
  rw [hversion] at hunpack
  rw [turn, if_neg (by omega), hfield, hread]
  dsimp only
  rw [if_neg (by omega), htake, UInt32.ofNat_toNat, UInt32.ofNat_toNat, hunpack, hlength, hkey]
  rfl

/-- The last queue is read if it has a property. -/
theorem loop_last {e : (ℕ × ℕ) × CofpacketQueue} (he : OnWire v e) {slot : List UInt8} (hslot : slot.length = e.2.size)
    (x : Omap ℕ (Omap ℕ CofpacketQueue)) :
    Loop.loop (turn v (Record.size l)) x (e.2.image l slot) =
      .ok (if e.2.queueProps.properties = [] then x else x.insert₂ e.1 e.2) := by
  have hl' : CofpacketQueue.layout e.2.ofpVersion = some l := by rw [he.version, hl]
  have hsplit := CofpacketQueue.size_eq hl'
  have hlength := CofpacketQueue.length_image hl' hslot
  split_ifs with hprops
  · have hzero := CofqueueProps.length_eq_zero.mpr hprops
    exact Loop.loop_end (by rw [turn, if_pos (by omega)])
  · have hpos := Nat.pos_of_ne_zero (mt CofqueueProps.length_eq_zero.mp hprops)
    have hturn : turn v (Record.size l) x (e.2.image l slot ++ []) = _ :=
      turn_image hl he hslot (by rw [List.length_nil]; omega) x
    have hend : turn v (Record.size l) (x.insert₂ e.1 e.2) [] = .ok none := rfl
    rw [List.append_nil] at hturn
    rw [Loop.loop_next (advances_turn hl) hturn, List.drop_length, Loop.loop_end hend]

/-- What the loop reads: all the queues, but not the last of them if it has no property. -/
theorem loop_images {es : List ((ℕ × ℕ) × CofpacketQueue)} (hes : ∀ e ∈ es, OnWire v e) {buf : List UInt8}
    (hbuf : buf.length = (es.map fun e => e.2.size).sum) :
    Loop.loop (turn v (Record.size l)) .empty
        ((Tlv.slots (fun e => e.2.size) es buf).flatMap fun p => p.1.2.image l p.2) =
      .ok (Omap.store₂.build
        (if ∀ e ∈ es.getLast?, e.2.queueProps.properties ≠ [] then es else es.dropLast)) := by
  have hmap : (Tlv.slots (fun e : (ℕ × ℕ) × CofpacketQueue => e.2.size) es buf).map Prod.fst = es := Tlv.map_slots es buf
  have hslot := Tlv.length_slot hbuf.ge
  have hsize : ∀ e ∈ es, e.2.size = Record.size l + e.2.queueProps.length := fun e he =>
    CofpacketQueue.size_eq (by rw [(hes e he).version, hl])
  have height := CofpacketQueue.size_pos_layout hl
  generalize Tlv.slots (fun e : (ℕ × ℕ) × CofpacketQueue => e.2.size) es buf = ps at hmap hslot
  subst hmap
  rcases List.eq_nil_or_concat' ps with rfl | ⟨init, p, rfl⟩
  · rfl
  have hmem : ∀ b ∈ init ++ [p], b.1 ∈ (init ++ [p]).map Prod.fst := fun b hb => List.mem_map_of_mem hb
  have himage : ∀ b ∈ init ++ [p], (b.1.2.image l b.2).length = b.1.2.size := fun b hb =>
    CofpacketQueue.length_image (by rw [(hes _ (hmem b hb)).version, hl]) (hslot b hb)
  have hne : ∀ b ∈ init ++ [p], ∀ rest, b.1.2.image l b.2 ++ rest ≠ [] := fun b hb rest h => by
    have hlen := congrArg List.length h
    have hb' := hsize _ (hmem b hb)
    rw [List.length_append, himage b hb, List.length_nil] at hlen
    omega
  have hinit : Loop.loop (turn v (Record.size l)) .empty ((init.flatMap fun b => b.1.2.image l b.2) ++ p.1.2.image l p.2) =
      Loop.loop (turn v (Record.size l)) (init.foldl (fun x b => x.insert₂ b.1.1 b.1.2) .empty) (p.1.2.image l p.2) := by
    refine Loop.loop_encode (advances_turn hl) (P := fun rest => rest ≠ [])
      (fun b hb rest _ => hne b (by simp [hb]) rest) (fun b hb x rest hrest => ?_) _ ?_
    · have hpos := List.length_pos_of_ne_nil hrest
      have hb' := hsize _ (hmem b (by simp [hb]))
      exact turn_image hl (hes _ (hmem b (by simp [hb]))) (hslot b (by simp [hb])) (by omega) x
    · have := hne p (by simp) []
      rwa [List.append_nil] at this
  have hfold : init.foldl (fun x b => x.insert₂ b.1.1 b.1.2) .empty = Omap.store₂.build (init.map Prod.fst) := by
    rw [Store.build, List.foldl_map]
    rfl
  have hlast : ((init ++ [p]).map Prod.fst).getLast? = some p.1 := by simp
  have hdrop : ((init ++ [p]).map Prod.fst).dropLast = init.map Prod.fst := by simp
  rw [List.flatMap_append, List.flatMap_cons, List.flatMap_nil, List.append_nil, hinit, hfold, hlast, hdrop]
  rw [loop_last hl (hes _ (hmem p (by simp))) (hslot p (by simp))]
  by_cases hprops : p.1.2.queueProps.properties = []
  · rw [if_pos hprops, if_neg fun h => h _ rfl hprops]
  · have hall : ∀ e ∈ some p.1, e.2.queueProps.properties ≠ [] := fun e he => by
      cases he
      exact hprops
    rw [if_neg hprops, if_pos hall, List.map_append, Store.build, Store.build, List.foldl_append]
    rfl

theorem packAll_images {es : List ((ℕ × ℕ) × CofpacketQueue)} (hes : ∀ e ∈ es, OnWire v e) {buf : List UInt8}
    (hbuf : buf.length = (es.map fun e => e.2.size).sum) :
    Tlv.packAll (fun e => e.2.size) (fun e => e.2.pack) es buf =
      .ok ((Tlv.slots (fun e => e.2.size) es buf).flatMap fun p => p.1.2.image l p.2) := by
  have hmap : (Tlv.slots (fun e : (ℕ × ℕ) × CofpacketQueue => e.2.size) es buf).map Prod.fst = es := Tlv.map_slots es buf
  refine Tlv.packAll_eq hbuf.le fun p hp => ?_
  have hmem : p.1 ∈ es := hmap ▸ List.mem_map_of_mem hp
  exact CofpacketQueue.pack_eq (by rw [(hes _ hmem).version, hl]) (Tlv.length_slot hbuf.ge p hp)

end

section

variable {x : CofpacketQueues} {l : Record.Layout} (hl : CofpacketQueue.layout x.ofpVersion = some l) {buf : List UInt8}
  (hlength : x.length = .ok buf.length)

include hl hlength

omit hl in
theorem length_buf : buf.length = (x.pqueues.entries₂.map fun e => e.2.size).sum := by
  unfold length at hlength
  split at hlength
  · exact (Except.ok.inj hlength).symm
  · cases hlength

theorem pack_eq (hes : ∀ e ∈ x.pqueues.entries₂, OnWire x.ofpVersion e) :
    x.pack buf = .ok ((Tlv.slots (fun e => e.2.size) x.pqueues.entries₂ buf).flatMap fun p => p.1.2.image l p.2) := by
  have hbuf := length_buf hlength
  have hpack := packAll_images hl hes hbuf
  unfold pack
  split
  · next hnil =>
    subst hnil
    cases hes' : x.pqueues.entries₂ with
    | nil => rfl
    | cons e es =>
      have he := hes e (by simp [hes'])
      have hsize := CofpacketQueue.size_eq (q := e.2) (by rw [he.version, hl])
      have height := CofpacketQueue.size_pos_layout hl
      rw [hes', List.map_cons, List.sum_cons, List.length_nil] at hbuf
      omega
  · rw [hlength]
    show (if buf.length < buf.length then _ else if (CofpacketQueue.layout x.ofpVersion).isNone = true then _ else _) = _
    rw [if_neg (Nat.lt_irrefl _), hl]
    exact hpack

/-- What comes back of queues that are on the wire as they are. -/
theorem unpack_eq (hes : ∀ e ∈ x.pqueues.entries₂, OnWire x.ofpVersion e) :
    (new x.ofpVersion).unpack
        ((Tlv.slots (fun e => e.2.size) x.pqueues.entries₂ buf).flatMap fun p => p.1.2.image l p.2) =
      .ok ⟨x.ofpVersion, Omap.store₂.build
        (if ∀ e ∈ x.pqueues.entries₂.getLast?, e.2.queueProps.properties ≠ [] then x.pqueues.entries₂
          else x.pqueues.entries₂.dropLast)⟩ := by
  have hloop := loop_images hl hes (length_buf hlength)
  unfold unpack
  split
  · next hnil =>
    rw [hnil] at hloop
    have hempty : Loop.loop (turn x.ofpVersion (Record.size l)) .empty [] = .ok .empty := rfl
    rw [hempty] at hloop
    rw [← Except.ok.inj hloop]
    rfl
  · show (match CofpacketQueue.layout x.ofpVersion with
      | none => _
      | some l => _) = _
    rw [hl]
    exact Except.bind_eq_ok.mpr ⟨_, hloop, rfl⟩

/-- A last queue without properties does not come back. -/
theorem last_lost (hes : ∀ e ∈ x.pqueues.entries₂, OnWire x.ofpVersion e) (h : x.RoundTrips buf) :
    ∀ e ∈ x.pqueues.entries₂.getLast?, e.2.queueProps.properties ≠ [] := by
  intro e he hprops
  obtain ⟨buf', y, hpack, hunpack, hfind⟩ := h
  rw [pack_eq hl hlength hes] at hpack
  cases hpack
  rw [unpack_eq hl hlength hes, if_neg fun h => h e he hprops] at hunpack
  cases hunpack
  have hsplit := List.dropLast_append_getLast? e he
  have hmem : (e.1, e.2) ∈ x.pqueues.entries₂ := hsplit ▸ List.mem_append_right _ (List.mem_singleton_self _)
  have hfound : Omap.store₂.find (Omap.store₂.build x.pqueues.entries₂.dropLast) e.1 = some e.2 :=
    (hfind e.1).trans (Omap.mem_entries₂.mp hmem)
  have hdrop := Store.mem_of_find_build hfound
  have hnodup := x.pqueues.nodup_keys₂
  rw [← hsplit, List.map_append, List.nodup_append] at hnodup
  exact hnodup.2.2 e.1 (List.mem_map_of_mem hdrop) e.1 (by simp) rfl

end

/-- Whatever is unpacked by a new object is on the wire as it is. -/
theorem onWire_of_unpack {x y : CofpacketQueues} {l : Record.Layout} (hl : CofpacketQueue.layout x.ofpVersion = some l)
    {buf : List UInt8} (h : (new x.ofpVersion).unpack buf = .ok y) {k : ℕ × ℕ}
    {q : CofpacketQueue} (hfind : y.pqueues.find₂ k = some q) : OnWire x.ofpVersion (k, q) := by
  unfold unpack at h
  split at h
  · cases h
    cases hfind
  · change (match CofpacketQueue.layout x.ofpVersion with
      | none => _
      | some l => _) = _ at h
    rw [hl] at h
    obtain ⟨s, hs, hy⟩ := Except.bind_eq_ok.mp h
    cases hy
    exact onWire_of_loop hl hs hfind

/-- Queues of a version come back exactly when they are on the wire as they are and the last
of them has a property. -/
theorem queues_roundTrip_iff {x : CofpacketQueues} (hx : (CofpacketQueue.layout x.ofpVersion).isSome) {buf : List UInt8}
    (hlength : x.length = .ok buf.length) : x.RoundTrips buf ↔ x.Kept := by
  obtain ⟨l, hl⟩ := Option.isSome_iff_exists.mp hx
  constructor
  · intro h
    have hes : ∀ e ∈ x.pqueues.entries₂, OnWire x.ofpVersion e := fun e he => by
      obtain ⟨buf', y, hpack, hunpack, hfind⟩ := h
      exact onWire_of_unpack hl hunpack ((hfind e.1).trans (Omap.mem_entries₂.mp he))
    exact ⟨hes, last_lost hl hlength hes h⟩
  · intro h
    refine ⟨_, _, pack_eq hl hlength h.queues, unpack_eq hl hlength h.queues, fun k => ?_⟩
    rw [if_pos h.last]
    exact (Store.lists_build x.pqueues.nodup_keys₂).find_eq x.pqueues.lists_entries₂ k

/-- A queue without properties before one with two of them, at the same port. -/
def pair : CofpacketQueues :=
  ⟨Openflow13.OFP_VERSION, Omap.empty.insert 5
    ((Omap.empty.insert 1 ⟨Openflow13.OFP_VERSION, 5, 1, .empty⟩).insert 2
      ⟨Openflow13.OFP_VERSION, 5, 2, ⟨some 100, none, some (7, [1, 2, 3])⟩⟩)⟩

theorem queues_roundTrip_pair : pair.RoundTrips (.replicate 67 0) := by
  refine (queues_roundTrip_iff rfl rfl).mpr ⟨fun e he => ?_, fun e he => ?_⟩
  · have hmem : e = ((5, 1), _) ∨ e ∈ [((5, 2), _)] := List.mem_cons.mp he
    rcases hmem with rfl | hmem
    · exact ⟨rfl, rfl, fun h10 => absurd h10 (by decide), by decide⟩
    · cases List.mem_singleton.mp hmem
      exact ⟨rfl, rfl, fun h10 => absurd h10 (by decide), by decide⟩
  · cases he
    exact List.cons_ne_nil _ _

/-- A queue without properties by itself. -/
def single : CofpacketQueues :=
  ⟨Openflow13.OFP_VERSION, Omap.empty.insert 5 (Omap.empty.insert 1 ⟨Openflow13.OFP_VERSION, 5, 1, .empty⟩)⟩

theorem single_lost : single.length = .ok (List.replicate 16 (0 : UInt8)).length ∧
    ¬single.RoundTrips (.replicate 16 0) := by
  refine ⟨rfl, fun h => ?_⟩
  have hes : ∀ e ∈ single.pqueues.entries₂, OnWire single.ofpVersion e := fun e he => by
    cases List.mem_singleton.mp he
    exact ⟨rfl, rfl, fun h10 => absurd h10 (by decide), by decide⟩
  exact last_lost (l := [.field 4, .field 4, .field 2, .pad 6]) rfl rfl hes h _ rfl rfl

end CofpacketQueues

end RoflCommon
