/-
The reassembly of multipart messages: the pending segments of `crofconn`, by
their transaction ids, `csegment`, and `handle_rx_multipart_message`.

A call deals with one message and touches the segments pending under its xid
alone, so long as the number of transactions stays below the limit
(`handleRx_advance`). From this, transactions arriving interleaved come to what
each comes to alone. Entries that were read can be copied, so that no exception
comes from there. The limit is tested ahead of the lookup, also where a
pending transaction is continued or ended: when as many transactions are
pending as may be, none of them can go on.
-/
import RoflCommon.Openflow.Multipart
import RoflCommon.Lib.Runs
import Mathlib.Data.List.Dedup

namespace RoflCommon

namespace Segments

/-- The order of the transaction ids. -/
scoped instance xidOrder : LinearOrder UInt32 where
  le_refl := UInt32.le_refl
  le_trans _ _ _ := UInt32.le_trans
  le_antisymm _ _ := UInt32.le_antisymm
  le_total := UInt32.le_total
  lt_iff_le_not_ge a b := by
    rw [UInt32.lt_iff_toNat_lt, UInt32.le_iff_toNat_le, UInt32.le_iff_toNat_le]
    omega
  toDecidableLE := inferInstance
  toDecidableEq := inferInstance
  toDecidableLT := inferInstance

end Segments

/-- The exceptions on the way, by the class of the object. -/
inductive SegmentError
  | exception
  | connInvalid
  | connNotFound
  | segmentedMessageInvalid
deriving DecidableEq, Repr

/-- `set_func` returns a reference to `rofl::exception`: what `throw` copies is
this part of the exception, whatever class it was made as. -/
def SegmentError.setFunc (_ : SegmentError) : SegmentError := .exception

/-! ## csegment -/

structure Csegment (ε : Type) where
  tspec : Nat
  xid : UInt32
  msg : Option (Multipart ε)
  msgType : UInt8
  msgMultipartType : Nat
deriving DecidableEq

namespace Csegment

variable {ε : Type}

def isExpired (c : Csegment ε) (now : Nat) : Bool := c.tspec ≤ now

/-- The message is of the type and the multipart type of the transaction. -/
def Matches (c : Csegment ε) (m : Multipart ε) : Prop :=
  c.msgType = m.type ∧ c.msgMultipartType = m.stats.statsType

instance (c : Csegment ε) (m : Multipart ε) : Decidable (c.Matches m) := instDecidableAnd

variable [Entry ε]

/-- `store_and_merge_msg`: the first message is cloned, with its MORE flag
cleared. -/
def storeAndMergeMsg (c : Csegment ε) (m : Multipart ε) : Except SegmentError (Csegment ε) :=
  match c.msg with
  | none => .ok { c with msg := some { m with stats := m.stats.clone }.clearMore }
  | some msg =>
    if c.msgType ≠ m.type then .error (.setFunc .segmentedMessageInvalid)
    else if c.msgMultipartType ≠ m.stats.statsType then .error (.setFunc .segmentedMessageInvalid)
    else .ok { c with msg := some { msg with stats := msg.stats.merge m.stats } }

end Csegment

/-! ## The pending segments of a connection -/

open scoped Segments in
structure Segments (ε : Type) where
  pendingSegments : Omap UInt32 (Csegment ε)
  pendingSegmentsMax : Nat
  timeoutSegments : Nat
  /-- When `TIMER_ID_PENDING_SEGMENTS` expires, if it is armed. -/
  timer : Option Nat
deriving DecidableEq

/-- What a call of `handle_rx_multipart_message` comes to. -/
inductive RxMultipart (ε : Type)
  | ignored
  | stored
  /-- Handed to `handle_recv`; there is no message where the transaction has none. -/
  | delivered (m : Option (Multipart ε))
  | thrown (e : SegmentError)
deriving DecidableEq

namespace Segments

variable {ε : Type}

/-- The timer is armed where it is not. -/
def arm (s : Segments ε) (now : Nat) : Segments ε :=
  match s.timer with
  | some _ => s
  | none => { s with timer := some (now + s.timeoutSegments) }

/-- `set_pending_segment` with a type and a multipart type: the segments
pending under the xid, which begin here when there are none. -/
def setPendingSegment (s : Segments ε) (now : Nat) (xid : UInt32) (msgType : UInt8) (msgMultipartType : Nat) :
    Except SegmentError (Segments ε × Csegment ε) :=
  if ¬ s.pendingSegments.size < s.pendingSegmentsMax then .error (.setFunc .connInvalid)
  else match s.pendingSegments.find? xid with
    | some c => .ok (s.arm now, c)
    | none =>
      let c : Csegment ε := ⟨now + s.timeoutSegments, xid, none, msgType, msgMultipartType⟩
      .ok ({ s with pendingSegments := s.pendingSegments.insert xid c }.arm now, c)

/-- `set_pending_segment` with the xid only. -/
def setPendingSegmentXid (s : Segments ε) (now : Nat) (xid : UInt32) :
    Except SegmentError (Segments ε × Csegment ε) :=
  if ¬ s.pendingSegments.size < s.pendingSegmentsMax then .error (.setFunc .connInvalid)
  else match s.pendingSegments.find? xid with
    | some c => .ok (s.arm now, c)
    | none => .error (.setFunc .connNotFound)

def hasPendingSegment (s : Segments ε) (xid : UInt32) : Bool := (s.pendingSegments.find? xid).isSome

def dropPendingSegment (s : Segments ε) (xid : UInt32) : Segments ε :=
  { s with pendingSegments := s.pendingSegments.erase xid }

/-- What is changed in the segments pending under the xid. -/
def put (s : Segments ε) (xid : UInt32) (c : Csegment ε) : Segments ε :=
  { s with pendingSegments := s.pendingSegments.insert xid c }

/-- The constructor. -/
def new (pendingSegmentsMax timeoutSegments : Nat) : Segments ε := ⟨.empty, pendingSegmentsMax, timeoutSegments, none⟩

variable [Entry ε]

/-- `set_pending_segment(..).store_and_merge_msg(*msg)`. -/
def store (s : Segments ε) (now : Nat) (m : Multipart ε) : Segments ε × Option SegmentError :=
  match s.setPendingSegment now m.xid m.type m.stats.statsType with
  | .error e => (s, some e)
  | .ok (s, c) =>
    match c.storeAndMergeMsg m with
    | .error e => (s, some e)
    | .ok c => (s.put m.xid c, none)

/-- `handle_rx_multipart_message`. A message of OpenFlow 1.0 has other types. -/
def handleRx (s : Segments ε) (now : Nat) (m : Multipart ε) : Segments ε × RxMultipart ε :=
  if m.type ≠ Openflow13.OFPT_MULTIPART_REQUEST ∧ m.type ≠ Openflow13.OFPT_MULTIPART_REPLY then (s, .ignored)
  else if m.more then
    match s.store now m with
    | (s, some e) => (s, .thrown e)
    | (s, none) => (s, .stored)
  else if s.hasPendingSegment m.xid then
    match s.store now m with
    | (s, some e) => (s, .thrown e)
    | (s, none) =>
      match s.setPendingSegmentXid now m.xid with
      | .error e => (s, .thrown e)
      -- `retrieve_and_detach_msg`
      | .ok (s, c) => ((s.put m.xid { c with msg := none }).dropPendingSegment m.xid, .delivered c.msg)
  else (s, .delivered (some m))

/-- `check_pending_segments`, when the timer has expired. -/
def checkPendingSegments (s : Segments ε) (now : Nat) : Segments ε :=
  let pending := s.pendingSegments.filter fun _ c => !c.isExpired now
  { s with
    pendingSegments := pending
    timer := if pending.size = 0 then none else some (now + s.timeoutSegments) }

/-- `clear_pending_segments`. -/
def clearPendingSegments (s : Segments ε) : Segments ε := { s with pendingSegments := .empty, timer := none }

/-! ## One transaction -/

/-- What a call does to the segments pending under the xid of its message, when
the limit is not reached. -/
def advance (timeout now : Nat) (o : Option (Csegment ε)) (m : Multipart ε) : Option (Csegment ε) × RxMultipart ε :=
  if m.type ≠ Openflow13.OFPT_MULTIPART_REQUEST ∧ m.type ≠ Openflow13.OFPT_MULTIPART_REPLY then (o, .ignored)
  else match o with
    | none =>
      if m.more then
        (some ⟨now + timeout, m.xid, some { m with stats := m.stats.clone }.clearMore, m.type, m.stats.statsType⟩, .stored)
      else (none, .delivered (some m))
    | some c =>
      match c.storeAndMergeMsg m with
      | .error e => (some c, .thrown e)
      | .ok c => if m.more then (some c, .stored) else (none, .delivered c.msg)

omit [Entry ε] in
@[simp] theorem arm_pendingSegments (s : Segments ε) (now : Nat) : (s.arm now).pendingSegments = s.pendingSegments := by
  unfold arm
  split <;> rfl

omit [Entry ε] in
@[simp] theorem arm_max (s : Segments ε) (now : Nat) : (s.arm now).pendingSegmentsMax = s.pendingSegmentsMax := by
  unfold arm
  split <;> rfl

omit [Entry ε] in
@[simp] theorem arm_timeout (s : Segments ε) (now : Nat) : (s.arm now).timeoutSegments = s.timeoutSegments := by
  unfold arm
  split <;> rfl

omit [Entry ε] in
/-- The timer is armed after a call that looked up a transaction. -/
theorem arm_arm (s : Segments ε) (now : Nat) : (s.arm now).arm now = s.arm now := by
  cases h : s.timer <;> simp [arm, h]

/-- The limit refuses, before anything else is looked at. -/
theorem store_full {s : Segments ε} (h : ¬ s.pendingSegments.size < s.pendingSegmentsMax) (now : Nat)
    (m : Multipart ε) : s.store now m = (s, some .exception) := by
  simp [store, setPendingSegment, h, SegmentError.setFunc]

/-- Below the limit, storing touches the message's transaction only. -/
theorem store_room {s : Segments ε} (h : s.pendingSegments.size < s.pendingSegmentsMax) (now : Nat)
    (m : Multipart ε) :
    s.store now m =
      match s.pendingSegments.find? m.xid with
      | none => ((s.arm now).put m.xid ⟨now + s.timeoutSegments, m.xid,
          some { m with stats := m.stats.clone }.clearMore, m.type, m.stats.statsType⟩, none)
      | some c =>
        match c.storeAndMergeMsg m with
        | .error e => (s.arm now, some e)
        | .ok c => ((s.arm now).put m.xid c, none) := by
  unfold store setPendingSegment
  rw [if_neg (not_not.mpr h)]
  cases hc : s.pendingSegments.find? m.xid with
  | some c => rfl
  | none =>
    cases ht : s.timer <;> simp [Csegment.storeAndMergeMsg, put, arm, ht, Omap.insert_insert]

/-- The same connection but for the transaction under an xid. -/
structure Only (s s' : Segments ε) (xid : UInt32) (o : Option (Csegment ε)) : Prop where
  find? : ∀ x, s'.pendingSegments.find? x = if x = xid then o else s.pendingSegments.find? x
  max : s'.pendingSegmentsMax = s.pendingSegmentsMax
  timeout : s'.timeoutSegments = s.timeoutSegments

omit [Entry ε] in
theorem Only.put (s : Segments ε) (now : Nat) (xid : UInt32) (c : Csegment ε) :
    Only s ((s.arm now).put xid c) xid (some c) where
  find? x := by simp [Segments.put]
  max := by simp [Segments.put]
  timeout := by simp [Segments.put]

omit [Entry ε] in
theorem Only.arm (s : Segments ε) (now : Nat) {xid : UInt32} {o : Option (Csegment ε)}
    (h : s.pendingSegments.find? xid = o) : Only s (s.arm now) xid o where
  find? x := by
    by_cases hx : x = xid
    · simp [hx, h]
    · simp [hx]
  max := by simp
  timeout := by simp

omit [Entry ε] in
theorem Only.refl {s : Segments ε} {xid : UInt32} {o : Option (Csegment ε)}
    (h : s.pendingSegments.find? xid = o) : Only s s xid o where
  find? x := by
    by_cases hx : x = xid
    · simp [hx, h]
    · simp [hx]
  max := rfl
  timeout := rfl

omit [Entry ε] in
theorem Only.eq_insert {s s' : Segments ε} {xid : UInt32} {c : Csegment ε} (h : Only s s' xid (some c)) :
    s'.pendingSegments = s.pendingSegments.insert xid c :=
  Omap.ext_find? fun x => by rw [h.find?, Omap.find?_insert]

omit [Entry ε] in
theorem Only.eq_erase {s s' : Segments ε} {xid : UInt32} (h : Only s s' xid none) :
    s'.pendingSegments = s.pendingSegments.erase xid :=
  Omap.ext_find? fun x => by rw [h.find?, Omap.find?_erase]

omit [Entry ε] in
theorem Only.eq_self {s s' : Segments ε} {xid : UInt32} (h : Only s s' xid (s.pendingSegments.find? xid)) :
    s'.pendingSegments = s.pendingSegments := by
  refine Omap.ext_find? fun x => ?_
  rw [h.find?]
  split
  next hx => rw [hx]
  next => rfl

omit [Entry ε] in
/-- A transaction that is retrieved and dropped. -/
theorem retrieve_drop (s : Segments ε) (now : Nat) (xid : UInt32) (c c' : Csegment ε) :
    Only s (((((s.arm now).put xid c).arm now).put xid c').dropPendingSegment xid) xid none where
  find? x := by by_cases hx : x = xid <;> simp [Segments.put, dropPendingSegment, hx]
  max := by simp [Segments.put, dropPendingSegment]
  timeout := by simp [Segments.put, dropPendingSegment]

/-- **Below the limit, a call advances the transaction of its message**, and
leaves the others alone. -/
theorem handleRx_advance {s : Segments ε} (h : s.pendingSegments.size < s.pendingSegmentsMax) (now : Nat)
    (m : Multipart ε) :
    Only s (s.handleRx now m).1 m.xid (advance s.timeoutSegments now (s.pendingSegments.find? m.xid) m).1 ∧
      (s.handleRx now m).2 = (advance s.timeoutSegments now (s.pendingSegments.find? m.xid) m).2 := by
  unfold handleRx advance
  split
  next htype => exact ⟨.refl rfl, rfl⟩
  next htype =>
    rw [store_room h]
    cases hc : s.pendingSegments.find? m.xid with
    | none =>
      cases hmore : m.more with
      | true => exact ⟨.put s now _ _, rfl⟩
      | false => simpa [hasPendingSegment, hc] using Only.refl hc
    | some c =>
      cases hstore : c.storeAndMergeMsg m with
      | error e => cases hmore : m.more <;> simpa [hasPendingSegment, hc, hstore] using Only.arm s now hc
      | ok c' =>
        cases hmore : m.more with
        | true => simpa [hstore] using Only.put s now m.xid c'
        | false =>
          have hsize : (s.pendingSegments.insert m.xid c').size < s.pendingSegmentsMax := by
            simpa [Omap.size_insert, hc] using h
          simpa [hasPendingSegment, hc, hstore, setPendingSegmentXid, Segments.put, hsize] using
            retrieve_drop s now m.xid c' { c' with msg := none }

omit [Entry ε] in
/-- The messages of the later versions are of the types looked at. -/
theorem type_of_version {m : Multipart ε} (h : m.version ≠ Openflow10.OFP_VERSION) :
    ¬ (m.type ≠ Openflow13.OFPT_MULTIPART_REQUEST ∧ m.type ≠ Openflow13.OFPT_MULTIPART_REPLY) := by
  unfold Multipart.type
  cases m.stats.type <;> simp [h]

/-- At the limit, whatever concerns a transaction is refused, a new one or not. -/
theorem handleRx_full {s : Segments ε} (h : ¬ s.pendingSegments.size < s.pendingSegmentsMax) (now : Nat)
    {m : Multipart ε} (hm : m.version ≠ Openflow10.OFP_VERSION) :
    s.handleRx now m =
      if m.more ∨ s.hasPendingSegment m.xid then (s, .thrown .exception) else (s, .delivered (some m)) := by
  unfold handleRx
  rw [if_neg (type_of_version hm), store_full h]
  cases m.more <;> cases s.hasPendingSegment m.xid <;> rfl

/-! ## Stored messages -/

/-- Every transaction has a message: the first one is stored as it begins. -/
def Stored (s : Segments ε) : Prop := ∀ xid c, s.pendingSegments.find? xid = some c → c.msg.isSome

omit [Entry ε] in
theorem stored_new (max timeout : Nat) : Stored (new max timeout : Segments ε) := by
  intro xid c h
  cases h

theorem storeAndMergeMsg_isSome {c c' : Csegment ε} {m : Multipart ε} (h : c.storeAndMergeMsg m = .ok c') :
    c'.msg.isSome := by
  unfold Csegment.storeAndMergeMsg at h
  split at h
  · obtain rfl := Except.ok.inj h
    rfl
  · split_ifs at h
    obtain rfl := Except.ok.inj h
    rfl

theorem advance_isSome {timeout now : Nat} {o : Option (Csegment ε)} {m : Multipart ε}
    (ho : ∀ c, o = some c → c.msg.isSome) {c : Csegment ε} (h : (advance timeout now o m).1 = some c) :
    c.msg.isSome := by
  unfold advance at h
  split at h
  · exact ho c h
  · cases o with
    | none =>
      cases hmore : m.more with
      | true =>
        obtain rfl : _ = c := by simpa [hmore] using h
        rfl
      | false => simp [hmore] at h
    | some d =>
      cases hstore : d.storeAndMergeMsg m with
      | error e =>
        obtain rfl : d = c := by simpa [hstore] using h
        exact ho d rfl
      | ok d' =>
        cases hmore : m.more with
        | true =>
          obtain rfl : d' = c := by simpa [hstore, hmore] using h
          exact storeAndMergeMsg_isSome hstore
        | false => simp [hstore, hmore] at h

/-- At the limit, the pending segments stay as they are. -/
theorem handleRx_full_pendingSegments {s : Segments ε} (h : ¬ s.pendingSegments.size < s.pendingSegmentsMax)
    (now : Nat) (m : Multipart ε) : (s.handleRx now m).1 = s := by
  unfold handleRx
  rw [store_full h]
  split_ifs <;> rfl

theorem Stored.handleRx {s : Segments ε} (hs : Stored s) (now : Nat) (m : Multipart ε) :
    Stored (s.handleRx now m).1 := by
  by_cases hroom : s.pendingSegments.size < s.pendingSegmentsMax
  · intro xid c hc
    rw [(handleRx_advance hroom now m).1.find?] at hc
    split at hc
    · exact advance_isSome (hs m.xid) hc
    · exact hs xid c hc
  · rw [handleRx_full_pendingSegments hroom]
    exact hs

omit [Entry ε] in
theorem Stored.checkPendingSegments {s : Segments ε} (hs : Stored s) (now : Nat) :
    Stored (s.checkPendingSegments now) := by
  intro xid c hc
  have hfilter : (s.pendingSegments.find? xid).filter (fun c => !c.isExpired now) = some c := by
    simpa [Segments.checkPendingSegments] using hc
  exact hs xid c (Option.filter_eq_some_iff.mp hfilter).1

/-! ## Transactions interleaved -/

/-- Messages received one after another, each at its time; what they come to,
by their xids. -/
def receive : Segments ε → List (Nat × Multipart ε) → Segments ε × List (UInt32 × RxMultipart ε)
  | s, [] => (s, [])
  | s, (now, m) :: ms =>
    let r := s.handleRx now m
    let t := receive r.1 ms
    (t.1, (m.xid, r.2) :: t.2)

theorem Stored.receive {s : Segments ε} (hs : Stored s) (ms : List (Nat × Multipart ε)) : Stored (s.receive ms).1 := by
  induction ms generalizing s with
  | nil => exact hs
  | cons m ms ih => exact ih (hs.handleRx m.1 m.2)

/-- All transactions are among some that do not reach the limit. -/
structure Room (xids : List UInt32) (s : Segments ε) : Prop where
  mem : ∀ xid, (s.pendingSegments.find? xid).isSome → xid ∈ xids
  lt : xids.length < s.pendingSegmentsMax

omit [Entry ε] in
theorem Room.size_lt {xids : List UInt32} {s : Segments ε} (h : Room xids s) :
    s.pendingSegments.size < s.pendingSegmentsMax :=
  (Omap.size_le h.mem).trans_lt h.lt

theorem Room.handleRx {xids : List UInt32} {s : Segments ε} (h : Room xids s) (now : Nat) {m : Multipart ε}
    (hm : m.xid ∈ xids) : Room xids (s.handleRx now m).1 := by
  have honly := (handleRx_advance h.size_lt now m).1
  constructor
  · intro xid hx
    rw [honly.find?] at hx
    split at hx
    next heq => exact heq ▸ hm
    next hne => exact h.mem xid hx
  · rw [honly.max]
    exact h.lt

theorem Room.receive {xids : List UInt32} {s : Segments ε} (h : Room xids s) {ms : List (Nat × Multipart ε)}
    (hms : ∀ m ∈ ms, m.2.xid ∈ xids) : Room xids (s.receive ms).1 := by
  induction ms generalizing s with
  | nil => exact h
  | cons m ms ih => exact ih (h.handleRx m.1 (hms m (by simp))) fun n hn => hms n (by simp [hn])

/-- Two connections on which the transaction under an xid is the same: what is
received under the xid comes to the same on both, whatever else the first one
receives in between. -/
theorem receive_filter {xids : List UInt32} {s a : Segments ε} (hs : Room xids s) (ha : Room xids a)
    (htimeout : a.timeoutSegments = s.timeoutSegments) {xid : UInt32}
    (hfind : a.pendingSegments.find? xid = s.pendingSegments.find? xid) {ms : List (Nat × Multipart ε)}
    (hms : ∀ m ∈ ms, m.2.xid ∈ xids) :
    (s.receive ms).2.filter (fun r => r.1 = xid) = (a.receive (ms.filter fun m => m.2.xid = xid)).2 := by
  induction ms generalizing s a with
  | nil => rfl
  | cons m ms ih =>
    obtain ⟨now, m⟩ := m
    have hmem : m.xid ∈ xids := hms (now, m) (by simp)
    have hrest : ∀ n ∈ ms, n.2.xid ∈ xids := fun n hn => hms n (by simp [hn])
    obtain ⟨honly, hres⟩ := handleRx_advance hs.size_lt now m
    by_cases hx : m.xid = xid
    · subst hx
      obtain ⟨honly', hres'⟩ := handleRx_advance ha.size_lt now m
      have hfind' : (a.handleRx now m).1.pendingSegments.find? m.xid =
          (s.handleRx now m).1.pendingSegments.find? m.xid := by
        rw [honly.find?, honly'.find?, if_pos rfl, if_pos rfl, hfind, htimeout]
      have hsame : (a.handleRx now m).2 = (s.handleRx now m).2 := by rw [hres, hres', hfind, htimeout]
      have hih := ih (hs.handleRx now hmem) (ha.handleRx now hmem)
        (by rw [honly.timeout, honly'.timeout, htimeout]) hfind' hrest
      simpa [Segments.receive, hsame] using hih
    · have hfind' : a.pendingSegments.find? xid = (s.handleRx now m).1.pendingSegments.find? xid := by
        rw [honly.find?, if_neg (Ne.symm hx), hfind]
      have hih := ih (hs.handleRx now hmem) ha (by rw [honly.timeout, htimeout]) hfind' hrest
      simpa [Segments.receive, hx] using hih

theorem storeAndMergeMsg_mismatch {c : Csegment ε} {m : Multipart ε} (hmsg : c.msg.isSome) (h : ¬ c.Matches m) :
    c.storeAndMergeMsg m = .error .exception := by
  obtain ⟨msg, hmsg⟩ := Option.isSome_iff_exists.mp hmsg
  unfold Csegment.storeAndMergeMsg
  rw [hmsg]
  by_cases htype : c.msgType = m.type
  · have hmp : c.msgMultipartType ≠ m.stats.statsType := fun hmp => h ⟨htype, hmp⟩
    simp [htype, hmp, SegmentError.setFunc]
  · simp [htype, SegmentError.setFunc]

/-- A message that does not belong to the transaction pending under its xid is
refused, below the limit. -/
theorem handleRx_mismatch {s : Segments ε} (hs : Stored s) (hroom : s.pendingSegments.size < s.pendingSegmentsMax)
    (now : Nat) {m : Multipart ε} {c : Csegment ε} (hc : s.pendingSegments.find? m.xid = some c)
    (hm : m.version ≠ Openflow10.OFP_VERSION) (h : ¬ c.Matches m) :
    (s.handleRx now m).2 = .thrown .exception ∧
      (s.handleRx now m).1.pendingSegments = s.pendingSegments := by
  have hadvance : advance s.timeoutSegments now (some c) m = (some c, .thrown .exception) := by
    simp [advance, type_of_version hm, storeAndMergeMsg_mismatch (hs m.xid c hc) h]
  obtain ⟨honly, hres⟩ := handleRx_advance hroom now m
  rw [hc, hadvance, ← hc] at honly
  rw [hc, hadvance] at hres
  exact ⟨hres, honly.eq_self⟩

/-- A message of another type than the transaction pending under its xid. -/
def Foreign (s : Segments ε) (m : Multipart ε) : Prop :=
  m.version ≠ Openflow10.OFP_VERSION ∧ ∃ c, s.pendingSegments.find? m.xid = some c ∧ ¬ c.Matches m

/-- Whatever came before, a message of another type is refused with
`eSegmentedMessageInvalid`, and nothing that is stored is changed. -/
def RefusesForeign (max timeout : Nat) (ms : List (Nat × Multipart ε)) : Prop :=
  ∀ pre now m post, ms = pre ++ (now, m) :: post → Foreign ((new max timeout).receive pre).1 m →
    (((new max timeout).receive pre).1.handleRx now m).2 = .thrown .segmentedMessageInvalid ∧
      (((new max timeout).receive pre).1.handleRx now m).1.pendingSegments =
        ((new max timeout).receive pre).1.pendingSegments

/-- What is received under an xid comes to what it comes to when it arrives
alone, in whatever order the messages of all transactions arrive. -/
theorem receive_independent {max timeout : Nat} {ms : List (Nat × Multipart ε)}
    (hmax : (ms.map fun m => m.2.xid).dedup.length < max) (xid : UInt32) :
    ((new max timeout).receive ms).2.filter (fun r => r.1 = xid) =
      ((new max timeout).receive (ms.filter fun m => m.2.xid = xid)).2 := by
  have hroom : Room (ms.map fun m => m.2.xid).dedup (new max timeout : Segments ε) :=
    ⟨fun xid h => by simp [new] at h, hmax⟩
  exact receive_filter hroom hroom rfl rfl fun m hm => List.mem_dedup.mpr (List.mem_map_of_mem hm)

/-- A message of another type is refused and changes nothing that is stored,
but what is thrown has lost its class. -/
theorem foreign_refused {max timeout : Nat} {pre post : List (Nat × Multipart ε)} {now : Nat} {m : Multipart ε}
    (hmax : ((pre ++ (now, m) :: post).map fun m => m.2.xid).dedup.length < max)
    (h : Foreign ((new max timeout).receive pre).1 m) :
    (((new max timeout).receive pre).1.handleRx now m).2 = .thrown .exception ∧
      (((new max timeout).receive pre).1.handleRx now m).1.pendingSegments =
        ((new max timeout).receive pre).1.pendingSegments := by
  have hroom : Room ((pre ++ (now, m) :: post).map fun m => m.2.xid).dedup (new max timeout : Segments ε) :=
    ⟨fun xid h => by simp [new] at h, hmax⟩
  have hxids : ∀ n ∈ pre, n.2.xid ∈ ((pre ++ (now, m) :: post).map fun m => m.2.xid).dedup := fun n hn =>
    List.mem_dedup.mpr (List.mem_map_of_mem (by simp [hn]))
  have hpre := hroom.receive hxids
  obtain ⟨hversion, c, hc, hmatch⟩ := h
  exact handleRx_mismatch ((stored_new max timeout).receive pre) hpre.size_lt now hc hversion hmatch

/-- **Interleaved transactions are independent, and messages of another type
than their transaction refused with `eSegmentedMessageInvalid`**, exactly where
there are no such messages: their exception is a `rofl::exception`. -/
theorem interleaved_independent_iff {max timeout : Nat} {ms : List (Nat × Multipart ε)}
    (hmax : (ms.map fun m => m.2.xid).dedup.length < max) :
    ((∀ xid, ((new max timeout).receive ms).2.filter (fun r => r.1 = xid) =
        ((new max timeout).receive (ms.filter fun m => m.2.xid = xid)).2) ∧ RefusesForeign max timeout ms) ↔
      ∀ pre now m post, ms = pre ++ (now, m) :: post → ¬ Foreign ((new max timeout).receive pre).1 m := by
  rw [and_iff_right (receive_independent hmax)]
  constructor
  · intro h pre now m post hms hforeign
    have hclass := (h pre now m post hms hforeign).1
    subst hms
    rw [(foreign_refused hmax hforeign).1] at hclass
    cases hclass
  · intro h pre now m post hms hforeign
    exact absurd hforeign (h pre now m post hms)

/-- A segment with one entry, numbered `n`. -/
def segment (xid : UInt32) (kind : ArrayKind) (more : Bool) (n : Nat) : Multipart Nat where
  version := Openflow13.OFP_VERSION
  xid := xid
  statsFlags := if more then Openflow13.OFPMPF_MORE else 0
  stats := .array kind (Omap.empty.insert n n)

/-- Two transactions in turns. -/
def turns : List (Nat × Multipart Nat) :=
  [(0, segment 1 .flow true 0), (0, segment 2 .meter true 1), (1, segment 1 .flow false 2),
    (1, segment 2 .meter false 3)]

theorem interleaved_independent_iff_two :
    ((∀ xid, ((new 3 60).receive turns).2.filter (fun r => r.1 = xid) =
        ((new 3 60).receive (turns.filter fun m => m.2.xid = xid)).2) ∧ RefusesForeign 3 60 turns) ↔
      ∀ pre now m post, turns = pre ++ (now, m) :: post → ¬ Foreign ((new 3 60).receive pre).1 m :=
  interleaved_independent_iff (by decide +kernel)

/-- Table statistics under the xid of a transaction with flow statistics. -/
theorem foreign_thrown : ∃ s, s = ((new 3 60).receive [(0, segment 1 .flow true 0)]).1 ∧
    Foreign s (segment 1 .table true 5) ∧
    (s.handleRx 1 (segment 1 .table true 5)).2 = .thrown .exception ∧
    (s.handleRx 1 (segment 1 .table true 5)).2 ≠ .thrown .segmentedMessageInvalid ∧
    ¬ RefusesForeign 3 60 [(0, segment 1 .flow true 0), (1, segment 1 .table true 5)] := by
  have hforeign : Foreign ((new 3 60).receive [(0, segment 1 .flow true 0)]).1 (segment 1 .table true 5) := by
    obtain ⟨c, hc, hmatch⟩ : ∃ c ∈ ((new 3 60).receive [(0, segment 1 .flow true 0)]).1.pendingSegments.find? 1,
        ¬ c.Matches (segment 1 .table true 5) := by decide +kernel
    exact ⟨by decide, c, hc, hmatch⟩
  have hthrown : ((((new 3 60).receive [(0, segment 1 .flow true 0)]).1).handleRx 1 (segment 1 .table true 5)).2 =
      .thrown .exception := by decide +kernel
  refine ⟨_, rfl, hforeign, hthrown, by rw [hthrown]; simp, fun h => ?_⟩
  have hclass := (h [(0, segment 1 .flow true 0)] 1 _ [] rfl hforeign).1
  rw [hthrown] at hclass
  cases hclass

/-! ## The limit -/

inductive Act (ε : Type)
  | rx (now : Nat) (m : Multipart ε)
  | check (now : Nat)
  | clear

def step (s : Segments ε) : Act ε → Option (Segments ε)
  | .rx now m => some (s.handleRx now m).1
  | .check now => some (s.checkPendingSegments now)
  | .clear => some s.clearPendingSegments

/-- Only the first segment of a new transaction is refused, and only at the
limit: a segment of a pending transaction is merged into it, and the last one
has the message delivered and makes room. -/
def OnlyNewRefused (s : Segments ε) : Act ε → Segments ε → Prop
  | .rx now m, s' =>
    m.version ≠ Openflow10.OFP_VERSION →
      match s.pendingSegments.find? m.xid with
      | some c => c.Matches m → ∃ msg, c.msg = some msg ∧
          let merged := { msg with stats := msg.stats.merge m.stats }
          if m.more then
            (s.handleRx now m).2 = .stored ∧
              s'.pendingSegments = s.pendingSegments.insert m.xid { c with msg := some merged }
          else
            (s.handleRx now m).2 = .delivered (some merged) ∧ s'.pendingSegments = s.pendingSegments.erase m.xid
      | none =>
        if m.more then
          if s.pendingSegments.size < s.pendingSegmentsMax then
            (s.handleRx now m).2 = .stored ∧
              s'.pendingSegments = s.pendingSegments.insert m.xid
                ⟨now + s.timeoutSegments, m.xid, some { m with stats := m.stats.clone }.clearMore, m.type,
                  m.stats.statsType⟩
          else (s.handleRx now m).2 = .thrown .exception ∧ s'.pendingSegments = s.pendingSegments
        else (s.handleRx now m).2 = .delivered (some m) ∧ s'.pendingSegments = s.pendingSegments
  | .check _, _ => True
  | .clear, _ => True

/-- No segment of a pending transaction arrives at the limit. -/
def BelowLimit (s : Segments ε) : Act ε → Prop
  | .rx _ m =>
    m.version ≠ Openflow10.OFP_VERSION →
      match s.pendingSegments.find? m.xid with
      | some c => c.Matches m → s.pendingSegments.size < s.pendingSegmentsMax
      | none => True
  | .check _ => True
  | .clear => True

theorem Stored.step {s s' : Segments ε} {a : Act ε} (hs : Stored s) (h : s.step a = some s') : Stored s' := by
  cases a with
  | rx now m =>
    obtain rfl := Option.some.inj h
    exact hs.handleRx now m
  | check now =>
    obtain rfl := Option.some.inj h
    exact hs.checkPendingSegments now
  | clear =>
    obtain rfl := Option.some.inj h
    intro xid c hc
    cases hc

theorem exists_run (s : Segments ε) (as : List (Act ε)) : ∃ t, Runs.run step s as = some t := by
  induction as generalizing s with
  | nil => exact ⟨s, rfl⟩
  | cons a as ih =>
    obtain ⟨s', hs'⟩ : ∃ s', s.step a = some s' := by cases a <;> exact ⟨_, rfl⟩
    obtain ⟨t, ht⟩ := ih s'
    exact ⟨t, Runs.run_cons.mpr ⟨s', hs', ht⟩⟩

theorem storeAndMergeMsg_ok {c : Csegment ε} {m msg : Multipart ε} (hmsg : c.msg = some msg) (h : c.Matches m) :
    c.storeAndMergeMsg m = .ok { c with msg := some { msg with stats := msg.stats.merge m.stats } } := by
  simp [Csegment.storeAndMergeMsg, hmsg, h.1, h.2]

/-- One message: it is dealt with as the limit means it exactly when it is no
segment of a pending transaction that arrives at the limit. -/
theorem onlyNewRefused_iff {s : Segments ε} (hs : Stored s) (now : Nat) (m : Multipart ε) :
    OnlyNewRefused s (.rx now m) (s.handleRx now m).1 ↔ BelowLimit s (.rx now m) := by
  refine forall_congr' fun hm => ?_
  have htype := type_of_version hm
  cases hc : s.pendingSegments.find? m.xid with
  | none =>
    by_cases hroom : s.pendingSegments.size < s.pendingSegmentsMax
    · obtain ⟨honly, hres⟩ := handleRx_advance hroom now m
      rw [hc] at honly hres
      cases hmore : m.more with
      | true =>
        simp only [advance, if_neg htype, hmore, if_true] at honly hres
        simp [hroom, hres, honly.eq_insert]
      | false =>
        have hsame : (s.handleRx now m).1.pendingSegments = s.pendingSegments := by
          simp only [advance, if_neg htype, hmore] at honly
          rw [honly.eq_erase, Omap.erase_of_find?_eq_none hc]
        simp only [advance, if_neg htype, hmore] at hres
        simp [hres, hsame]
    · rw [handleRx_full hroom now hm]
      cases hmore : m.more <;> simp [hroom, hasPendingSegment, hc]
  | some c =>
    refine forall_congr' fun hmatch => ?_
    constructor
    · intro h
      by_contra hroom
      obtain ⟨msg, -, h⟩ := h
      rw [handleRx_full hroom now hm] at h
      cases hmore : m.more <;> simp [hmore, hasPendingSegment, hc] at h
    · intro hroom
      obtain ⟨msg, hmsg⟩ := Option.isSome_iff_exists.mp (hs m.xid c hc)
      obtain ⟨honly, hres⟩ := handleRx_advance hroom now m
      rw [hc] at honly hres
      refine ⟨msg, hmsg, ?_⟩
      cases hmore : m.more with
      | true =>
        simp only [advance, if_neg htype, storeAndMergeMsg_ok hmsg hmatch, hmore, if_true] at honly hres
        exact ⟨hres, honly.eq_insert⟩
      | false =>
        simp only [advance, if_neg htype, storeAndMergeMsg_ok hmsg hmatch, hmore] at honly hres
        exact ⟨hres, honly.eq_erase⟩

/-- **The limit refuses new transactions only** in exactly those runs in which
no segment of a pending transaction arrives while as many are pending as may
be. -/
theorem limit_iff (max timeout : Nat) (as : List (Act ε)) :
    Runs.Along step OnlyNewRefused (new max timeout) as ↔ Runs.Meets step BelowLimit (new max timeout) as := by
  obtain ⟨t, ht⟩ := exists_run (new max timeout) as
  refine Runs.along_iff_meets (I := Stored) (fun s a s' hs h => hs.step h) (fun s a s' hs h => ?_)
    (stored_new max timeout) ht
  cases a with
  | rx now m =>
    obtain rfl := Option.some.inj h
    exact onlyNewRefused_iff hs now m
  | check now => exact Iff.rfl
  | clear => exact Iff.rfl

/-- With room for one transaction, the one that is begun cannot be ended. -/
theorem last_segment_refused : ∃ s ∈ Runs.run step (new 1 60) [.rx 0 (segment 7 .flow true 0)],
    s.pendingSegments.size = s.pendingSegmentsMax ∧
    (∃ c ∈ s.pendingSegments.find? 7, c.Matches (segment 7 .flow false 1)) ∧
    (s.handleRx 1 (segment 7 .flow false 1)).2 = .thrown .exception ∧
    (s.handleRx 1 (segment 7 .flow false 1)).1 = s := by decide +kernel

end Segments
end RoflCommon
