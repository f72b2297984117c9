/-
Sending a message that asks for a reply: `crofconn::send_message` with a
deadline, on top of `segment_and_send_message` and `crofsock::send_message`.

The request is registered first and the message sent afterwards. Whatever goes
wrong then, the request stays pending: the result is that of a failure or, for
a long message no `segment_*` function is for, `MSG_IGNORED`, where the message
is neither sent nor deleted (`accounted_iff`). Nor is it where an entry cannot
be copied, and an exception leaves the functions.
-/
import RoflCommon.Crofsock.Send
import RoflCommon.Crofconn.Requests
import RoflCommon.Crofconn.Segmentation

namespace RoflCommon

namespace MsgResult

/-- The message has been stored. -/
def Queued (r : MsgResult) : Prop := r = .queued ∨ r = .queuedCongestion

/-- The message has been deleted. -/
def Failed (r : MsgResult) : Prop := r = .queueFull ∨ r = .notEstablished ∨ r = .shutdownInProgress

instance (r : MsgResult) : Decidable r.Queued := instDecidableOr

instance (r : MsgResult) : Decidable r.Failed := instDecidableOr

theorem Failed.not_queued {r : MsgResult} (h : r.Failed) : ¬ r.Queued := by
  unfold Failed at h
  unfold Queued
  rcases h with rfl | rfl | rfl <;> simp

end MsgResult

/-- How `crofconn::send_message` ends. -/
inductive MsgOutcome
  | returned (r : MsgResult)
  | thrown
deriving DecidableEq, Repr

namespace MsgOutcome

def Queued : MsgOutcome → Prop
  | returned r => r.Queued
  | thrown => False

def Failed : MsgOutcome → Prop
  | returned r => r.Failed
  | thrown => False

instance (r : MsgOutcome) : Decidable r.Queued := by
  unfold Queued
  cases r <;> infer_instance

instance (r : MsgOutcome) : Decidable r.Failed := by
  unfold Failed
  cases r <;> infer_instance

theorem Failed.not_queued {r : MsgOutcome} (h : r.Failed) : ¬ r.Queued := by
  cases r with
  | returned r => exact MsgResult.Failed.not_queued h
  | thrown => exact not_false

end MsgOutcome

/-! ## crofsock::send_message -/

namespace Tx

/-- A call of `send_message`, with nothing else going on meanwhile. -/
def call (s : Tx) (m : Cofmsg) (enforce : Bool) : Tx × MsgResult :=
  let s := { s with begun := s.begun ++ [m] }
  if s.txDisabled then ({ s with results := s.results ++ [(m, .shutdownInProgress)] }, .shutdownInProgress)
  else if ¬ s.state.established then ({ s with results := s.results ++ [(m, .notEstablished)] }, .notEstablished)
  else match (s.txqueues (queueOf m)).store m (enforce || isEcho m) with
    | none => ({ s with results := s.results ++ [(m, .queueFull)] }, .queueFull)
    | some q =>
      let r := if s.flagTxBlockQueueing then .queuedCongestion else .queued
      ({ s with
        txqueues := Function.update s.txqueues (queueOf m) q
        stored := s.stored ++ [m]
        txqueuePendingPkts := s.txqueuePendingPkts + 1
        wakeup := s.wakeup || !s.txIsRunning
        results := s.results ++ [(m, r)] }, r)

theorem eraseIdx_append_length {α : Type} (l : List α) (a : α) : (l ++ [a]).eraseIdx l.length = l := by
  simp [List.eraseIdx_append_of_length_le]

/-- **A call is a run of the steps of the sending half.** -/
theorem call_run (s : Tx) (m : Cofmsg) (enforce : Bool) :
    ∃ as, Runs.run step s as = some (s.call m enforce).1 := by
  unfold call
  by_cases hdisabled : s.txDisabled = true
  · exact ⟨[.sendMessage m enforce], by simp [step, sendMessage, hdisabled, Runs.run]⟩
  by_cases hstate : s.state.established = true
  · cases hstore : (s.txqueues (queueOf m)).store m (enforce || isEcho m) with
    | none =>
      refine ⟨[.sendMessage m enforce, .store s.inStore.length], ?_⟩
      simp [step, sendMessage, storeMessage, hdisabled, hstate, hstore, Runs.run, eraseIdx_append_length]
    | some q =>
      refine ⟨[.sendMessage m enforce, .store s.inStore.length, .count s.inCount.length, .test s.inTest.length,
        .return s.inReturn.length], ?_⟩
      simp [step, sendMessage, storeMessage, countMessage, testRunning, returnQueued, hdisabled, hstate, hstore,
        Runs.run, eraseIdx_append_length]
  · exact ⟨[.sendMessage m enforce], by simp [step, sendMessage, hdisabled, hstate, Runs.run]⟩

/-- Messages are taken for sending. -/
def Up (s : Tx) : Prop := s.txDisabled = false ∧ s.state.established = true

instance (s : Tx) : Decidable s.Up := instDecidableAnd

/-- There is room for the message in its queue. -/
def Room (s : Tx) (m : Cofmsg) : Prop := (s.txqueues (queueOf m)).size < (s.txqueues (queueOf m)).queueMaxSize

instance (s : Tx) (m : Cofmsg) : Decidable (s.Room m) := Nat.decLt _ _

/-- The messages are stored behind those that were there. -/
def Stored (s s' : Tx) (ms : List Cofmsg) : Prop :=
  ∀ q, (s'.txqueues q).queue = (s.txqueues q).queue ++ ms.filter (queueOf · = q)

theorem Stored.nil (s : Tx) : Stored s s [] := by
  intro q
  simp

theorem Stored.trans {s s' s'' : Tx} {ms ms' : List Cofmsg} (h : Stored s s' ms) (h' : Stored s' s'' ms') :
    Stored s s'' (ms ++ ms') := by
  intro q
  rw [h' q, h q, List.filter_append, List.append_assoc]

theorem call_accepted {s : Tx} {m : Cofmsg} (enforce : Bool) (hup : s.Up)
    (h : enforce = true ∨ isEcho m = true ∨ s.Room m) :
    (s.call m enforce).2.Queued ∧ Stored s (s.call m enforce).1 [m] ∧ (s.call m enforce).1.Up := by
  obtain ⟨hdisabled, hstate⟩ := hup
  obtain ⟨q, hq⟩ : ∃ q, (s.txqueues (queueOf m)).store m (enforce || isEcho m) = some q := by
    unfold Crofqueue.store
    rw [if_neg]
    · exact ⟨_, rfl⟩
    · intro hfull
      unfold Room at h
      rcases h with h | h | h
      · simp [h] at hfull
      · simp [h] at hfull
      · omega
  have hqueue := Crofqueue.store_queue hq
  simp only [call, hdisabled, hstate, hq, Bool.false_eq_true, if_false, not_true_eq_false]
  refine ⟨?_, fun p => ?_, rfl, hstate⟩
  · unfold MsgResult.Queued
    split <;> simp
  · by_cases hp : queueOf m = p
    · subst hp
      simp [hqueue]
    · simp [hp, Function.update_of_ne (Ne.symm hp)]

theorem call_refused {s : Tx} {m : Cofmsg} (enforce : Bool)
    (h : ¬ (s.Up ∧ (enforce = true ∨ isEcho m = true ∨ s.Room m))) :
    (s.call m enforce).2.Failed ∧ Stored s (s.call m enforce).1 [] ∧ ((s.call m enforce).1.Up ↔ s.Up) := by
  unfold call
  by_cases hdisabled : s.txDisabled = true
  · simp [hdisabled, MsgResult.Failed, Stored, Up]
  by_cases hstate : s.state.established = true
  · have hstore : (s.txqueues (queueOf m)).store m (enforce || isEcho m) = none := by
      unfold Crofqueue.store
      rw [if_pos]
      simp only [Up, Room, not_and_or, not_or] at h
      rcases h with h | ⟨h₁, h₂, h₃⟩
      · simp [hdisabled, hstate] at h
      · exact ⟨by simp [h₁, h₂], by omega⟩
    simp [hdisabled, hstate, hstore, MsgResult.Failed, Stored, Up]
  · simp [hdisabled, hstate, MsgResult.Failed, Stored, Up]

end Tx

/-! ## segment_and_send_message -/

/-- The types of the messages with statistics. Messages of these types are of
the classes derived from `cofmsg_stats`. -/
def isStats (version type : UInt8) : Bool :=
  if version = Openflow10.OFP_VERSION then type == Openflow10.OFPT_STATS_REQUEST || type == Openflow10.OFPT_STATS_REPLY
  else type == Openflow13.OFPT_MULTIPART_REQUEST || type == Openflow13.OFPT_MULTIPART_REPLY

inductive Message (ε : Type)
  | stats (m : Multipart ε)
  | other (m : Cofmsg) (noStats : isStats m.version m.type = false)
deriving DecidableEq

namespace Message

variable {ε : Type}

section

variable [Entry ε]

/-- The message as `crofsock` sees it. -/
def toCofmsg : Message ε → Cofmsg
  | stats m => m.toCofmsg
  | other m _ => m

def handling : Message ε → Handling ε
  | stats m => m.handling
  | other m _ => if m.length ≤ segmentationThreshold then .send else .ignored

end

/-- There is a `segment_*` function for the message. -/
def segmentable : Message ε → Bool
  | stats ⟨version, _, _, .array kind _⟩ => version == Openflow13.OFP_VERSION ||
      version == Openflow12.OFP_VERSION && kind ∈ [.flow, .table, .group, .groupDesc]
  | stats ⟨version, _, _, .queue _⟩ => version == Openflow13.OFP_VERSION || version == Openflow12.OFP_VERSION
  | _ => false

/-- A reply with meter features, which is sent whatever its length. -/
def meterFeatures : Message ε → Bool
  | stats ⟨version, _, _, .plain type n _ _⟩ =>
    version == Openflow13.OFP_VERSION && type == .reply && n == Openflow13.OFPMP_METER_FEATURES
  | _ => false

variable [Entry ε]

/-- Its entries can be copied, and the copies as well. -/
def copiesTwice : Message ε → Bool
  | stats m => m.stats.copiesTwice
  | other _ _ => true

/-- Too long to be sent as it is. -/
def Long (m : Message ε) : Prop := segmentationThreshold < m.toCofmsg.length

instance (m : Message ε) : Decidable m.Long := Nat.decLt _ _

theorem long_stats {m : Multipart ε} : (stats m).Long ↔ ¬ m.length ≤ segmentationThreshold := by
  rw [Long, toCofmsg, Multipart.length_toCofmsg, Nat.not_le]

theorem long_other {m : Cofmsg} {noStats : isStats m.version m.type = false} :
    (other m noStats : Message ε).Long ↔ ¬ m.length ≤ segmentationThreshold := by
  rw [Long, toCofmsg, Nat.not_le]

theorem handling_of_not_long {m : Message ε} (h : ¬ m.Long) : m.handling = .send := by
  cases m with
  | stats m =>
    rw [long_stats, not_not] at h
    simp [handling, Multipart.handling, h]
  | other m noStats =>
    rw [long_other, not_not] at h
    simp [handling, h]

/-- The function that is chosen is that of the message's class. -/
theorem splitOrThrown_of_segmentable {m : Multipart ε} (h : ¬ m.length ≤ segmentationThreshold)
    (h' : (stats m).segmentable = true) : m.SplitOrThrown m.handling := by
  obtain ⟨version, xid, flags, stats⟩ := m
  simp only [Multipart.handling, h, if_false]
  cases stats with
  | array kind a =>
    simp only [segmentable, Bool.or_eq_true, Bool.and_eq_true, beq_iff_eq, decide_eq_true_eq] at h'
    cases h' with
    | inl h' =>
      subst h'
      cases kind <;> exact Multipart.splitOrThrown_array rfl
    | inr h' =>
      obtain ⟨rfl, hkind⟩ := h'
      cases kind <;> first | exact Multipart.splitOrThrown_array rfl | simp at hkind
  | queue a =>
    simp only [segmentable, Bool.or_eq_true, beq_iff_eq] at h'
    cases h' with
    | inl h' =>
      subst h'
      exact Multipart.splitOrThrown_queue rfl
    | inr h' =>
      subst h'
      exact Multipart.splitOrThrown_queue rfl
  | plain type n noArray body => cases h'

theorem handling_of_segmentable {m : Message ε} (h : m.Long) (h' : m.segmentable = true) :
    if m.copiesTwice then ∃ ms, m.handling = .segments ms else m.handling = .thrown := by
  cases m with
  | stats m =>
    have hsplit := splitOrThrown_of_segmentable (long_stats.mp h) h'
    unfold Multipart.SplitOrThrown at hsplit
    show if m.stats.copiesTwice then ∃ ms, m.handling = .segments ms else m.handling = .thrown
    split
    next htwice =>
      rw [if_pos htwice] at hsplit
      obtain ⟨s, hs⟩ := hsplit
      exact ⟨_, hs⟩
    next htwice => rwa [if_neg htwice] at hsplit
  | other m noStats => cases h'

theorem handling_of_meterFeatures {m : Message ε} (h : m.meterFeatures = true) : m.handling = .send := by
  by_cases hlong : m.Long
  case neg => exact handling_of_not_long hlong
  cases m with
  | stats m =>
    rw [long_stats] at hlong
    obtain ⟨version, xid, flags, stats⟩ := m
    cases stats with
    | array kind a => cases h
    | queue a => cases h
    | plain type n noArray body =>
      simp only [meterFeatures, Bool.and_eq_true, beq_iff_eq] at h
      obtain ⟨⟨rfl, rfl⟩, rfl⟩ := h
      simp only [handling, Multipart.handling, hlong, if_false]
      rfl
  | other m noStats => cases h

theorem handling_of_other {m : Message ε} (h : m.Long) (h₁ : m.segmentable = false) (h₂ : m.meterFeatures = false) :
    m.handling = .ignored := by
  cases m with
  | stats m =>
    rw [long_stats] at h
    obtain ⟨version, xid, flags, stats⟩ := m
    simp only [handling, Multipart.handling, h, if_false]
    cases stats with
    | array kind a =>
      simp only [segmentable, Bool.or_eq_false_iff, beq_eq_false_iff_ne] at h₁
      by_cases hv : version = Openflow12.OFP_VERSION
      · subst hv
        cases kind <;> first | rfl | exact absurd h₁.2 (by decide)
      · simp [h₁.1, hv]
    | queue a =>
      simp only [segmentable, Bool.or_eq_false_iff, beq_eq_false_iff_ne] at h₁
      simp [h₁.1, h₁.2]
    | plain type n noArray body =>
      by_cases hv : version = Openflow12.OFP_VERSION
      · simp [hv]
      by_cases hv' : version = Openflow13.OFP_VERSION
      · subst hv'
        cases type with
        | request => simp [hv]
        | reply =>
          have hn : n ≠ Openflow13.OFPMP_METER_FEATURES := by simpa [meterFeatures] using h₂
          simp [hv, hn]
      · simp [hv, hv']
  | other m noStats =>
    rw [long_other] at h
    simp [handling, h]

/-- A message that is cut is cut into at least one segment. -/
theorem segments_ne_nil {m : Message ε} {ms : List (Multipart ε)} (h : m.handling = .segments ms) : ms ≠ [] := by
  have hlong : m.Long := by
    by_contra hlong
    rw [handling_of_not_long hlong] at h
    cases h
  cases m with
  | stats m =>
    rw [long_stats, Nat.not_le] at hlong
    obtain ⟨-, s, rfl⟩ := Multipart.exists_split h
    have hitems := s.items_ne_nil hlong
    intro hnil
    have hgroups := congrArg List.length hnil
    rw [Multipart.Split.segments, Multipart.length_markMore, List.length_map, List.length_nil, List.length_eq_zero_iff] at hgroups
    exact Chunks.groups_ne_nil s.weight maxLength hitems hgroups
  | other m noStats =>
    simp only [handling] at h
    split at h <;> cases h

end Message

/-! ## crofconn::send_message -/

/-- A connection, as far as it sends. -/
structure Sender where
  requests : Requests
  rofsock : Tx

namespace Sender

variable {ε : Type} [Entry ε]

/-- The segments are sent one after the other, whatever becomes of them. -/
def sendSegments (s : Tx) (r : MsgResult) : List (Multipart ε) → Tx × MsgResult
  | [] => (s, r)
  | m :: ms => sendSegments (s.call m.toCofmsg true).1 (s.call m.toCofmsg true).2 ms

def segmentAndSendMessage (s : Tx) (m : Message ε) : Tx × MsgOutcome :=
  match m.handling with
  | .send => ((s.call m.toCofmsg false).1, .returned (s.call m.toCofmsg false).2)
  | .segments ms => ((sendSegments s .queued ms).1, .returned (sendSegments s .queued ms).2)
  | .ignored => (s, .returned .ignored)
  | .thrown => (s, .thrown)

/-- The versions `send_message` knows. -/
def known (version : UInt8) : Bool :=
  version == Openflow10.OFP_VERSION || version == Openflow12.OFP_VERSION || version == Openflow13.OFP_VERSION

/-- `get_stats_type()` of a request for statistics. -/
def subtype : Message ε → Nat
  | .stats m => if m.stats.type = .request then m.stats.statsType else 0
  | .other _ _ => 0

/-- The request as it is registered. -/
def transaction (m : Message ε) (ts : Nat) : Ctransaction :=
  ⟨m.toCofmsg.xid, ts, m.toCofmsg.type, subtype m⟩

def sendMessage (s : Sender) (m : Message ε) (ts : Nat) : Sender × MsgOutcome :=
  let requests := if known m.toCofmsg.version then s.requests.addPendingRequest (transaction m ts) else s.requests
  (⟨requests, (segmentAndSendMessage s.rofsock m).1⟩, (segmentAndSendMessage s.rofsock m).2)

/-! ## What becomes of a message -/

/-- The messages a message is sent as: itself, or its segments. -/
def parts (m : Message ε) : List Cofmsg :=
  match m.handling with
  | .segments ms => ms.map Multipart.toCofmsg
  | _ => [m.toCofmsg]

/-- The request is pending only if the message has been queued, and the message
has been queued or, with a failure, deleted. -/
structure Accounted (s : Sender) (m : Message ε) (ts : Nat) : Prop where
  pending : (s.sendMessage m ts).1.requests.hasPendingRequest m.toCofmsg.xid = true → (s.sendMessage m ts).2.Queued
  unchanged : ¬ (s.sendMessage m ts).2.Queued → (s.sendMessage m ts).1.requests = s.requests
  disposed : (s.sendMessage m ts).2.Queued ∧ s.rofsock.Stored (s.sendMessage m ts).1.rofsock (parts m) ∨
    (s.sendMessage m ts).2.Failed ∧ s.rofsock.Stored (s.sendMessage m ts).1.rofsock []

/-- The message can be sent at all. -/
def Sendable (m : Message ε) : Prop :=
  m.Long → m.segmentable = true ∧ m.copiesTwice = true ∨ m.meterFeatures = true

instance (m : Message ε) : Decidable (Sendable m) := inferInstanceAs (Decidable (_ → _))

/-- The socket takes the message: segments and ECHO messages even where the
queue is full. -/
def Accepts (s : Sender) (m : Message ε) : Prop :=
  s.rofsock.Up ∧ (m.Long ∧ m.segmentable = true ∨ Tx.isEcho m.toCofmsg = true ∨ s.rofsock.Room m.toCofmsg)

instance (s : Sender) (m : Message ε) : Decidable (s.Accepts m) := inferInstanceAs (Decidable (_ ∧ _))

/-- The message is registered as a request. -/
def Registers (s : Sender) (m : Message ε) (ts : Nat) : Prop :=
  known m.toCofmsg.version = true ∧ ∀ p ∈ s.requests.pendingRequests.elems, p.tspec ≠ ts

instance (s : Sender) (m : Message ε) (ts : Nat) : Decidable (s.Registers m ts) := inferInstanceAs (Decidable (_ ∧ _))

theorem sendSegments_up {s : Tx} {r : MsgResult} (ms : List (Multipart ε)) (hup : s.Up) (hr : r.Queued) :
    (sendSegments s r ms).2.Queued ∧ s.Stored (sendSegments s r ms).1 (ms.map Multipart.toCofmsg) := by
  induction ms generalizing s r with
  | nil => exact ⟨hr, .nil s⟩
  | cons m ms ih =>
    obtain ⟨hqueued, hstored, hup⟩ := Tx.call_accepted (m := m.toCofmsg) true hup (.inl rfl)
    obtain ⟨hlast, hrest⟩ := ih hup hqueued
    exact ⟨hlast, hstored.trans hrest⟩

theorem sendSegments_down {s : Tx} {r : MsgResult} {ms : List (Multipart ε)} (hdown : ¬ s.Up) (hne : ms ≠ []) :
    (sendSegments s r ms).2.Failed ∧ s.Stored (sendSegments s r ms).1 [] := by
  induction ms generalizing s r with
  | nil => exact absurd rfl hne
  | cons m ms ih =>
    obtain ⟨hfailed, hstored, hup⟩ := Tx.call_refused (s := s) (m := m.toCofmsg) true fun h => hdown h.1
    cases ms with
    | nil => exact ⟨hfailed, hstored⟩
    | cons n ms =>
      obtain ⟨hlast, hrest⟩ := ih (r := (s.call m.toCofmsg true).2) (fun h => hdown (hup.mp h)) (by simp)
      exact ⟨hlast, hstored.trans hrest⟩

/-- A message that goes as it is. -/
theorem parts_of_send {m : Message ε} (h : m.handling = .send) : parts m = [m.toCofmsg] := by
  simp [parts, h]

omit [Entry ε] in
theorem not_meterFeatures_of_segmentable {m : Message ε} (h : m.segmentable = true) : m.meterFeatures = false := by
  cases m with
  | stats m =>
    obtain ⟨version, xid, flags, stats⟩ := m
    cases stats with
    | array kind a => rfl
    | queue a => rfl
    | plain type n noArray body => cases h
  | other m noStats => cases h

theorem sendable_cases {m : Message ε} (h : Sendable m) :
    (m.Long ∧ m.segmentable = true ∧ ∃ ms, m.handling = .segments ms) ∨
      ¬ (m.Long ∧ m.segmentable = true) ∧ m.handling = .send := by
  by_cases hlong : m.Long
  · rcases h hlong with ⟨hseg, htwice⟩ | hmeter
    · have hsegments := Message.handling_of_segmentable hlong hseg
      rw [if_pos htwice] at hsegments
      exact .inl ⟨hlong, hseg, hsegments⟩
    · refine .inr ⟨fun hno => ?_, Message.handling_of_meterFeatures hmeter⟩
      rw [not_meterFeatures_of_segmentable hno.2] at hmeter
      cases hmeter
  · exact .inr ⟨fun hno => hlong hno.1, Message.handling_of_not_long hlong⟩

theorem sent_of_accepts {s : Sender} {m : Message ε} (h : Sendable m) (ha : s.Accepts m) :
    (segmentAndSendMessage s.rofsock m).2.Queued ∧
      s.rofsock.Stored (segmentAndSendMessage s.rofsock m).1 (parts m) := by
  obtain ⟨hup, hroom⟩ := ha
  obtain ⟨hlong, hseg, ms, hms⟩ | ⟨hno, hsend⟩ := sendable_cases h
  · simp only [segmentAndSendMessage, parts, hms]
    exact sendSegments_up ms hup (.inl rfl)
  · rw [parts_of_send hsend]
    simp only [segmentAndSendMessage, hsend]
    obtain ⟨hqueued, hstored, -⟩ := Tx.call_accepted false hup (.inr (hroom.resolve_left hno))
    exact ⟨hqueued, hstored⟩

theorem sent_of_not_accepts {s : Sender} {m : Message ε} (h : Sendable m) (ha : ¬ s.Accepts m) :
    (segmentAndSendMessage s.rofsock m).2.Failed ∧ s.rofsock.Stored (segmentAndSendMessage s.rofsock m).1 [] := by
  obtain ⟨hlong, hseg, ms, hms⟩ | ⟨hno, hsend⟩ := sendable_cases h
  · have hdown : ¬ s.rofsock.Up := fun hup => ha ⟨hup, .inl ⟨hlong, hseg⟩⟩
    simp only [segmentAndSendMessage, hms]
    exact sendSegments_down hdown (Message.segments_ne_nil hms)
  · simp only [segmentAndSendMessage, hsend]
    obtain ⟨hfailed, hstored, -⟩ := Tx.call_refused (s := s.rofsock) (m := m.toCofmsg) false fun hroom =>
      ha ⟨hroom.1, .inr (hroom.2.resolve_left (by simp))⟩
    exact ⟨hfailed, hstored⟩

/-- **A long message that nothing is there for, or that cannot be copied, is left
where it is.** -/
theorem left_of_not_sendable {s : Tx} {m : Message ε} (h : ¬ Sendable m) :
    segmentAndSendMessage s m = (s, .returned .ignored) ∨ segmentAndSendMessage s m = (s, .thrown) := by
  simp only [Sendable, Classical.not_imp, not_or, not_and, Bool.not_eq_true] at h
  obtain ⟨hlong, hseg, hmeter⟩ := h
  cases hs : m.segmentable with
  | false =>
    left
    simp [segmentAndSendMessage, Message.handling_of_other hlong hs hmeter]
  | true =>
    right
    have hthrown := Message.handling_of_segmentable hlong hs
    rw [if_neg (by simp [hseg hs])] at hthrown
    simp [segmentAndSendMessage, hthrown]

/-! ## The requests -/

theorem sendMessage_of_not_registers {s : Sender} {m : Message ε} {ts : Nat} (h : ¬ s.Registers m ts) :
    (s.sendMessage m ts).1.requests = s.requests := by
  simp only [sendMessage]
  split
  next hknown =>
    simp only [Registers, hknown, true_and] at h
    push Not at h
    obtain ⟨p, hp, hts⟩ := h
    exact Requests.addPendingRequest_of_mem hp hts
  next => rfl

theorem sendMessage_of_registers {s : Sender} {m : Message ε} {ts : Nat} (h : s.Registers m ts) :
    (s.sendMessage m ts).1.requests.pendingRequests = s.requests.pendingRequests.insert (transaction m ts) := by
  simp [sendMessage, h.1]

/-- A registered request is a change. -/
theorem sendMessage_ne_of_registers {s : Sender} {m : Message ε} {ts : Nat} (h : s.Registers m ts) :
    (s.sendMessage m ts).1.requests ≠ s.requests := by
  intro heq
  have hpending := sendMessage_of_registers h
  rw [heq] at hpending
  have hmem : transaction m ts ∈ s.requests.pendingRequests := by
    rw [hpending, Oset.mem_insert h.2]
    exact .inl rfl
  exact h.2 _ hmem rfl

/-- **The request is pending only if its message is queued, and no message is lost
in silence, exactly when the message can be sent at all and either the socket
takes it or there is no request.** -/
theorem accounted_iff {s : Sender} {m : Message ε} {ts : Nat} : s.Accounted m ts ↔
    Sendable m ∧ (s.Accepts m ∨ ¬ s.Registers m ts ∧ s.requests.hasPendingRequest m.toCofmsg.xid = false) := by
  constructor
  · intro h
    have hsendable : Sendable m := by
      by_contra hno
      have hdisposed := h.disposed
      rcases left_of_not_sendable (s := s.rofsock) hno with hleft | hleft <;>
        simp [sendMessage, hleft, MsgOutcome.Queued, MsgOutcome.Failed, MsgResult.Queued, MsgResult.Failed] at hdisposed
    refine ⟨hsendable, ?_⟩
    by_cases ha : s.Accepts m
    · exact .inl ha
    right
    have hnot : ¬ (s.sendMessage m ts).2.Queued := (sent_of_not_accepts hsendable ha).1.not_queued
    have hsame := h.unchanged hnot
    refine ⟨fun hreg => sendMessage_ne_of_registers hreg hsame, ?_⟩
    have hpending := mt h.pending hnot
    rwa [hsame, Bool.not_eq_true] at hpending
  · intro h
    obtain ⟨hsendable, h⟩ := h
    by_cases ha : s.Accepts m
    · have hsent := sent_of_accepts hsendable ha
      exact ⟨fun _ => hsent.1, fun hnot => absurd hsent.1 hnot, .inl hsent⟩
    · have hsent := sent_of_not_accepts hsendable ha
      obtain ⟨hreg, hxid⟩ := h.resolve_left ha
      have hsame := sendMessage_of_not_registers hreg
      refine ⟨fun hpending => ?_, fun _ => hsame, .inr hsent⟩
      rw [hsame, hxid] at hpending
      cases hpending

/-- A long reply of OpenFlow 1.0. -/
def longReply : Message Nat := .stats ⟨1, 8, 0, .array .flow (Omap.empty.insert 0 70000)⟩

theorem long_longReply : longReply.Long := by
  rw [longReply, Message.long_stats]
  decide +kernel

/-- A barrier request, sent before the connection is established, is deleted but
waited for; so is a message too long to be sent, which is not even deleted. -/
theorem failed_but_pending : ∃ m : Message Nat, ∃ s : Sender, s.rofsock = .new ∧
    (s.sendMessage m 10).2 = .returned .notEstablished ∧
    (s.sendMessage m 10).1.requests.hasPendingRequest m.toCofmsg.xid = true ∧ ¬ s.Accounted m 10 ∧
    (s.sendMessage longReply 10).2 = .returned .ignored ∧
    (s.sendMessage longReply 10).1.requests.hasPendingRequest longReply.toCofmsg.xid = true ∧
    ¬ s.Accounted longReply 10 := by
  have hlong : ((⟨.new 0 .new, .new⟩ : Sender).sendMessage longReply 10).2 = .returned .ignored := by
    simp only [sendMessage, segmentAndSendMessage, Message.handling_of_other long_longReply rfl rfl]
  refine ⟨.other ⟨4, 20, 7, []⟩ rfl, ⟨.new 0 .new, .new⟩, rfl, by decide +kernel, by decide +kernel, fun h => ?_,
    hlong, by decide +kernel, fun h => ?_⟩
  · have hqueued := h.pending (by decide +kernel)
    exact absurd hqueued (by decide +kernel)
  · have hqueued := h.pending (by decide +kernel)
    rw [hlong] at hqueued
    exact absurd hqueued (by decide)

end Sender

end RoflCommon
