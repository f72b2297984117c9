/-
The arrays of entries that statistics messages carry (`cof*statsarray`,
`coftables`, `cofports`, `cofmeterconfigarray`), and what `operator+=` does
with the keys of their entries: most arrays replace what they have under a
key; flow statistics are appended behind the last key; meter statistics and
meter configurations fill the first free keys; queue statistics are replaced
by port and queue.

Keys are natural numbers here. The 32 bits of a key matter where flow
statistics count past the last one, and nowhere else.
-/
import RoflCommon.Openflow
import RoflCommon.Lib.Chunks
import RoflCommon.Lib.Omap
import Mathlib.Data.Nat.Basic

namespace RoflCommon

/-- `length()`, `pack()` and the assignment of the classes of entries. -/
class Entry (ε : Type) where
  length : ε → Nat
  pack : ε → List UInt8
  length_pack : ∀ e, (pack e).length = length e
  /-- What `operator=` makes of an entry, where it comes back: an OXM of another
  class than its id says is a `std::bad_cast`, for instance. -/
  copy : ε → Option ε
  /-- What is lost is lost at the first time. -/
  copy_copy : ∀ e e', copy e = some e' → copy e' = some e' ∨ copy e' = none

namespace Entry

variable {ε : Type} [Entry ε]

def copies (e : ε) : Bool := (copy e).isSome

/-- The copy, where there is one. -/
def assign (e : ε) : ε := (copy e).getD e

/-- The copy is the entry itself. -/
def Settled (e : ε) : Prop := copy e = some e

theorem Settled.assign_eq {e : ε} (h : Settled e) : assign e = e := by simp [assign, show copy e = some e from h]

theorem settled_iff {e : ε} : Settled e ↔ copies e = true ∧ assign e = e := by
  unfold Settled copies assign
  cases copy e <;> simp

/-- An entry that can be copied twice is settled after the first time. -/
theorem settled_assign {e : ε} (h : copies e = true) (h' : copies (assign e) = true) : Settled (assign e) := by
  obtain ⟨e', he⟩ := Option.isSome_iff_exists.mp h
  obtain rfl : assign e = e' := by simp [assign, he]
  refine (copy_copy e _ he).resolve_right fun hnone => ?_
  rw [copies, hnone] at h'
  cases h'

end Entry

/-- Entries of zeros. -/
instance : Entry Nat where
  length n := n
  pack n := List.replicate n 0
  length_pack _ := List.length_replicate
  copy := some
  copy_copy _ _ _ := .inl rfl

inductive MultipartType
  | request | reply
deriving DecidableEq, Repr

/-- The classes of messages with an array of entries under one key. -/
inductive ArrayKind
  | tableFeaturesRequest
  | flow | table | portStats | group | groupDesc | tableFeatures | portDesc | meter | meterConfig
deriving DecidableEq, Repr

namespace ArrayKind

def type : ArrayKind → MultipartType
  | tableFeaturesRequest => .request
  | flow | table | portStats | group | groupDesc | tableFeatures | portDesc | meter | meterConfig => .reply

def statsType : ArrayKind → Nat
  | tableFeaturesRequest => Openflow13.OFPMP_TABLE_FEATURES
  | flow => Openflow13.OFPMP_FLOW
  | table => Openflow13.OFPMP_TABLE
  | portStats => Openflow13.OFPMP_PORT_STATS
  | group => Openflow13.OFPMP_GROUP
  | groupDesc => Openflow13.OFPMP_GROUP_DESC
  | tableFeatures => Openflow13.OFPMP_TABLE_FEATURES
  | portDesc => Openflow13.OFPMP_PORT_DESC
  | meter => Openflow13.OFPMP_METER
  | meterConfig => Openflow13.OFPMP_METER_CONFIG

end ArrayKind

/-! ## Arrays -/

/-- Entries under a key. -/
abbrev Entries (ε : Type) := Omap Nat ε

/-- Entries under a port and a queue, `cofqueuestatsarray`. -/
abbrev Queues (ε : Type) := Omap Nat (Omap Nat ε)

section

variable {ε : Type}

namespace Entries

/-- `operator+=` of most arrays: an entry replaces the one under its key. -/
def addByKey (array other : Entries ε) : Entries ε := array.insertAll other.entries

def length [Entry ε] (array : Entries ε) : Nat := Chunks.total (fun e => Entry.length e.2) array.entries

/-- `operator=` comes back. -/
def copies [Entry ε] (array : Entries ε) : Bool := array.entries.all fun e => Entry.copies e.2

/-- `operator=`. -/
def assign [Entry ε] (array : Entries ε) : Entries ε := array.map fun _ e => Entry.assign e

/-- The key after the last one. -/
def nextKey (array : Entries ε) : Nat :=
  match array.keys.getLast? with
  | none => 0
  | some k => (k + 1) % 4294967296

/-- `cofflowstatsarray::operator+=`: from the key after the last one on. -/
def addBehind (array other : Entries ε) : Entries ε :=
  (other.values.foldl (fun p e => (p.1.insert p.2 e, (p.2 + 1) % 4294967296)) (array, array.nextKey)).1

/-- `while (array.find(index) != array.end()) index++`. The loop ends after as
many rounds as there are entries, at the latest. -/
def firstFree (array : Entries ε) : Nat → Nat → Nat
  | 0, index => index
  | n + 1, index => if (array.find? index).isSome then firstFree array n (index + 1) else index

/-- `cofmeterstatsarray::operator+=` and `cofmeterconfigarray::operator+=`: an
entry goes to the first free key. -/
def addFree (array other : Entries ε) : Entries ε :=
  (other.values.foldl
    (fun p e =>
      let index := firstFree p.1 p.1.size p.2
      (p.1.insert index e, index))
    (array, 0)).1

end Entries

/-- `operator+=` of the arrays. -/
def ArrayKind.add : ArrayKind → Entries ε → Entries ε → Entries ε
  | .tableFeaturesRequest => Entries.addByKey
  | .flow => Entries.addBehind
  | .table => Entries.addByKey
  | .portStats => Entries.addByKey
  | .group => Entries.addByKey
  | .groupDesc => Entries.addByKey
  | .tableFeatures => Entries.addByKey
  | .portDesc => Entries.addByKey
  | .meter => Entries.addFree
  | .meterConfig => Entries.addFree

namespace Queues

/-- `add_queue_stats(port_no, queue_id) = e`. -/
def addQueueStats (array : Queues ε) (portNo queueId : Nat) (e : ε) : Queues ε :=
  array.insert portNo (((array.find? portNo).getD .empty).insert queueId e)

def length [Entry ε] (array : Queues ε) : Nat :=
  Chunks.total (fun port => Entries.length port.2) array.entries

/-- All the queues of a port, one after another. -/
def addPort (array : Queues ε) (portNo : Nat) (queues : Omap Nat ε) : Queues ε :=
  queues.entries.foldl (fun array q => array.addQueueStats portNo q.1 q.2) array

/-- `cofqueuestatsarray::operator+=`. -/
def add (array other : Queues ε) : Queues ε :=
  other.entries.foldl (fun array port => array.addPort port.1 port.2) array

def copies [Entry ε] (array : Queues ε) : Bool := array.entries.all fun port => Entries.copies port.2

/-- All queues of all ports are assigned. -/
def assignEach [Entry ε] (array : Queues ε) : Queues ε := array.map fun _ queues => Entries.assign queues

/-- `cofqueuestatsarray::operator=`: a port without queues is not copied. -/
def assign [Entry ε] (array : Queues ε) : Queues ε := Queues.add .empty array.assignEach

end Queues

end

/-! ## Adding what comes next

Where the entries of two arrays follow each other in an array, all the ways
of adding come to the same: the entries of the second behind those of the
first. -/

section

variable {ε : Type}

/-- The keys a class assigns on its own, counting from zero. -/
def ArrayKind.Keyed : ArrayKind → Entries ε → Prop
  | .flow, a => a.keys = List.range a.size ∧ a.size ≤ 4294967296
  | .meter, a | .meterConfig, a => a.keys = List.range a.size
  | _, _ => True

namespace Entries

theorem entries_addByKey {a b : Entries ε} (h : (a.entries ++ b.entries).Pairwise fun d e => d.1 < e.1) :
    (a.addByKey b).entries = a.entries ++ b.entries := Omap.entries_insertAll h

/-- The keys count from zero. -/
theorem lt_of_keys {a : Entries ε} {n : Nat} (h : a.keys = List.range n) {e : Nat × ε} (he : e ∈ a.entries) :
    e.1 < n := by
  have : e.1 ∈ a.keys := List.mem_map_of_mem he
  rwa [h, List.mem_range] at this

theorem keys_insert_range {a : Entries ε} {n : Nat} (h : a.keys = List.range n) (e : ε) :
    (a.insert n e).keys = List.range (n + 1) := by
  have := Omap.entries_insert e fun d hd => lt_of_keys h hd
  simp [Omap.keys, this, List.range_succ, ← h]

theorem nextKey_eq {a : Entries ε} {n : Nat} (h : a.keys = List.range n) : a.nextKey = n % 4294967296 := by
  unfold nextKey
  rw [h]
  cases n with
  | zero => rfl
  | succ n => simp [List.range_succ]

/-- The loop of `addBehind`, from the key `n` on. -/
theorem addBehind_loop {a : Entries ε} {n : Nat} {es : List (Nat × ε)} (ha : a.keys = List.range n)
    (hes : es.map Prod.fst = List.range' n es.length) (hbound : n + es.length ≤ 4294967296) :
    (((es.map Prod.snd).foldl (fun p e => (p.1.insert p.2 e, (p.2 + 1) % 4294967296))
      (a, n % 4294967296)).1).entries = a.entries ++ es := by
  induction es generalizing a n with
  | nil => simp
  | cons e es ih =>
    obtain ⟨rfl, hrest⟩ : e.1 = n ∧ es.map Prod.fst = List.range' (n + 1) es.length := by
      simpa [List.range'_succ] using hes
    have hlt : e.1 % 4294967296 = e.1 := Nat.mod_eq_of_lt (by simp at hbound; omega)
    have hins := Omap.entries_insert e.2 fun d hd => lt_of_keys ha hd
    have := ih (keys_insert_range ha e.2) hrest (by simp at hbound; omega)
    simpa [hlt, hins] using this

/-- The loop over free keys ends at the first one. -/
theorem firstFree_eq {a : Entries ε} {n : Nat} (ha : a.keys = List.range n) {i m : Nat} (hi : i ≤ n)
    (hm : n ≤ i + m) : firstFree a m i = n := by
  induction m generalizing i with
  | zero =>
    unfold firstFree
    omega
  | succ m ih =>
    have hkey : (a.find? i).isSome ↔ i < n := by rw [← Omap.mem_keys, ha, List.mem_range]
    unfold firstFree
    by_cases hlt : i < n
    · rw [if_pos (hkey.mpr hlt)]
      exact ih (by omega) (by omega)
    · rw [if_neg (mt hkey.mp hlt)]
      omega

theorem addFree_loop {a : Entries ε} {n i : Nat} {es : List (Nat × ε)} (ha : a.keys = List.range n) (hi : i ≤ n)
    (hes : es.map Prod.fst = List.range' n es.length) :
    (((es.map Prod.snd).foldl
      (fun p e =>
        let index := firstFree p.1 p.1.size p.2
        (p.1.insert index e, index))
      (a, i)).1).entries = a.entries ++ es := by
  induction es generalizing a n i with
  | nil => simp
  | cons e es ih =>
    obtain ⟨rfl, hrest⟩ : e.1 = n ∧ es.map Prod.fst = List.range' (n + 1) es.length := by
      simpa [List.range'_succ] using hes
    have hsize : a.size = e.1 := by
      have := congrArg List.length ha
      simpa [Omap.keys, Omap.size] using this
    have hfree : firstFree a a.size i = e.1 := firstFree_eq ha hi (by omega)
    have hins := Omap.entries_insert e.2 fun d hd => lt_of_keys ha hd
    have := ih (keys_insert_range ha e.2) (Nat.le_succ e.1) hrest
    simpa [hfree, hins] using this

end Entries

/-- The keys of arrays that follow each other in one whose keys count from zero. -/
theorem keys_of_isPrefix {whole a b : Entries ε} (hkeys : whole.keys = List.range whole.size)
    (h : a.entries ++ b.entries <+: whole.entries) :
    a.keys = List.range a.size ∧ b.keys = List.range' a.size b.size ∧ a.size + b.size ≤ whole.size := by
  have hle : a.size + b.size ≤ whole.size := by simpa [Omap.size] using h.length_le
  have hpre : a.keys ++ b.keys <+: List.range whole.size := by
    rw [← hkeys]
    simpa [Omap.keys] using h.map Prod.fst
  have hlen : (a.keys ++ b.keys).length = a.size + b.size := by simp [Omap.keys, Omap.size]
  have htake : a.keys ++ b.keys = List.range a.size ++ List.range' a.size b.size := by
    rw [List.prefix_iff_eq_take.mp hpre, hlen, List.take_range, Nat.min_eq_left hle, List.range_eq_range',
      List.range_eq_range']
    simpa using (List.range'_append_1 (s := 0) (m := a.size) (n := b.size)).symm
  obtain ⟨ha, hb⟩ := List.append_inj htake (by simp [Omap.keys, Omap.size])
  exact ⟨ha, hb, hle⟩

/-- **Adding what comes next appends**, for the arrays of every class. -/
theorem ArrayKind.entries_add {kind : ArrayKind} {whole a b : Entries ε} (hkeyed : kind.Keyed whole)
    (h : a.entries ++ b.entries <+: whole.entries) : (kind.add a b).entries = a.entries ++ b.entries := by
  have hasc : (a.entries ++ b.entries).Pairwise fun d e => d.1 < e.1 := whole.ascending.sublist h.sublist
  have hrange := fun hkeys : whole.keys = List.range whole.size => keys_of_isPrefix hkeys h
  cases kind with
  | flow =>
    obtain ⟨ha, hb, hle⟩ := hrange hkeyed.1
    have := Entries.addBehind_loop ha hb (hle.trans hkeyed.2)
    rw [← Entries.nextKey_eq ha] at this
    exact this
  | meter | meterConfig =>
    obtain ⟨ha, hb, hle⟩ := hrange hkeyed
    exact Entries.addFree_loop ha (Nat.zero_le _) hb
  | tableFeaturesRequest | table | portStats | group | groupDesc | tableFeatures | portDesc =>
    exact Entries.entries_addByKey hasc

namespace Queues

/-- A port with queues; the others leave no trace in a copy. -/
def used (port : Nat × Omap Nat ε) : Bool := !port.2.entries.isEmpty

theorem addQueueStats_insert (array : Queues ε) (p q : Nat) (queues : Omap Nat ε) (e : ε) :
    addQueueStats (array.insert p queues) p q e = array.insert p (queues.insert q e) := by
  simp [addQueueStats, Omap.insert_insert]

/-- Queues added to a port that is there. -/
theorem addPort_loop (array : Queues ε) (p : Nat) (queues : Omap Nat ε) (qs : List (Nat × ε)) :
    qs.foldl (fun (array : Queues ε) q => array.addQueueStats p q.1 q.2) (array.insert p queues) =
      array.insert p (queues.insertAll qs) := by
  induction qs generalizing queues with
  | nil => rfl
  | cons q qs ih =>
    rw [List.foldl_cons, addQueueStats_insert, ih]
    rfl

theorem entries_addPort {array : Queues ε} {port : Nat × Omap Nat ε} (h : ∀ p ∈ array.entries, p.1 < port.1) :
    (array.addPort port.1 port.2).entries = array.entries ++ [port].filter used := by
  obtain ⟨p, queues⟩ := port
  have hnone : array.find? p = none := by
    refine Omap.find?_eq_none.mpr fun hk => ?_
    obtain ⟨e, he, rfl⟩ := List.mem_map.mp hk
    exact (h e he).false
  cases hq : queues.entries with
  | nil => simp [addPort, used, hq]
  | cons q qs =>
    have hall : (Omap.empty.insertAll (q :: qs) : Omap Nat ε) = queues :=
      Omap.ext (by rw [Omap.entries_insertAll (by simpa [Omap.empty, hq] using queues.ascending), hq]; rfl)
    have hport : array.addPort p queues = array.insert p queues := by
      have := addPort_loop array p (Omap.empty.insert q.1 q.2) qs
      rw [show (Omap.empty.insert q.1 q.2).insertAll qs = (Omap.empty.insertAll (q :: qs) : Omap Nat ε) from rfl,
        hall] at this
      simpa [addPort, hq, addQueueStats, hnone] using this
    simp [hport, Omap.entries_insert queues h, used, hq]

theorem addPorts_entries {array : Queues ε} {ports : List (Nat × Omap Nat ε)}
    (h : (array.entries ++ ports).Pairwise fun d e => d.1 < e.1) :
    (ports.foldl (fun array port => array.addPort port.1 port.2) array).entries =
      array.entries ++ ports.filter used := by
  induction ports generalizing array with
  | nil => simp
  | cons port ports ih =>
    have hport : (array.addPort port.1 port.2).entries = array.entries ++ [port].filter used :=
      entries_addPort fun p hp => (List.pairwise_append.mp h).2.2 p hp port (by simp)
    have hasc : ((array.addPort port.1 port.2).entries ++ ports).Pairwise fun d e => d.1 < e.1 := by
      rw [hport, List.append_assoc]
      refine h.sublist (List.Sublist.append_left ?_ _)
      exact (List.filter_sublist (l := [port])).append (List.Sublist.refl ports)
    rw [List.foldl_cons, ih hasc, hport, List.append_assoc, ← List.filter_append]
    rfl

theorem entries_assign [Entry ε] (array : Queues ε) :
    array.assign.entries = array.assignEach.entries.filter used := by
  have hadd : (Queues.add .empty array.assignEach).entries = [] ++ array.assignEach.entries.filter used :=
    addPorts_entries (by simpa [Omap.empty] using array.assignEach.ascending)
  simpa [assign] using hadd

theorem entries_add {a b : Queues ε} (h : (a.entries ++ b.entries).Pairwise fun d e => d.1 < e.1) :
    (a.add b).entries = a.entries ++ b.entries.filter used := addPorts_entries h

end Queues

end

end RoflCommon
