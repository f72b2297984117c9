/-
The requests of a connection that wait for a reply, and their timer:
`ctransaction`, `add_pending_request`, `drop_pending_request` and
`check_pending_requests`.

What the requests are for says `Ledger`: a request is outstanding until its
reply arrives or a check finds its deadline passed, which is then reported. The
set of the requests is one of deadlines. Of two requests with one deadline it
holds the first only, and neither is the second pending nor is its deadline
ever reported. The timer may get lost as well, where another object of the
thread has one of the same id at the same time. But for these, and for a check
while nobody listens, the set and the timer do what they are for
(`exact_iff_meets`).
-/
import RoflCommon.Cthread
import RoflCommon.Lib.Runs

namespace RoflCommon

structure Ctransaction where
  xid : UInt32
  tspec : Nat
  type : UInt8
  subtype : Nat
deriving DecidableEq, Repr

/-- The requests of the object `self`, on its thread. -/
structure Requests where
  self : Nat
  pendingRequests : Oset Ctransaction.tspec
  thread : Cthread

namespace Requests

/-- `TIMER_ID_PENDING_REQUESTS`. -/
def pendingRequestsTimer : Nat := 5

def new (self : Nat) (thread : Cthread) : Requests := ⟨self, .empty, thread⟩

/-- The timer is armed for the first deadline. -/
def armFirst (r : Requests) : Requests :=
  match r.pendingRequests.first with
  | none => r
  | some ta => { r with thread := r.thread.addTimer r.self pendingRequestsTimer ta.tspec }

def insert (r : Requests) (ta : Ctransaction) : Requests := { r with pendingRequests := r.pendingRequests.insert ta }

def addPendingRequest (r : Requests) (ta : Ctransaction) : Requests :=
  match r.pendingRequests.first with
  | none => (r.insert ta).armFirst
  | some first =>
    if (r.insert ta).pendingRequests.first.map Ctransaction.xid = some first.xid then r.insert ta
    else (r.insert ta).armFirst

/-- The timer is left as it is. -/
def dropPendingRequest (r : Requests) (xid : UInt32) : Requests :=
  { r with pendingRequests := r.pendingRequests.filter (·.xid != xid) }

def hasPendingRequest (r : Requests) (xid : UInt32) : Bool := r.pendingRequests.elems.any (·.xid == xid)

/-- The loop of `check_pending_requests`, with the requests for which
`handle_transaction_timeout` is called. There is nobody to call where the
environment is not `registered`. -/
def checkLoop (now : Nat) (registered : Bool) : Nat → Requests → Requests × List Ctransaction
  | 0, r => (r, [])
  | fuel + 1, r =>
    match r.pendingRequests.first with
    | none => (r, [])
    | some ta =>
      if now < ta.tspec then (r.armFirst, [])
      else
        let r := { r with pendingRequests := r.pendingRequests.eraseFirst }
        if registered then
          let (r, reported) := checkLoop now registered fuel r
          (r, ta :: reported)
        else (r, [])

/-- Each round but the last erases a request. -/
def checkPendingRequests (r : Requests) (now : Nat) (registered : Bool) : Requests × List Ctransaction :=
  checkLoop now registered (r.pendingRequests.size + 1) r

/-- When the timer expires, if it is armed. -/
def armed (r : Requests) : Option Nat := r.thread.armed r.self pendingRequestsTimer

/-- Another object's timer is in the way of one at the time. -/
def Taken (r : Requests) (tspec : Nat) : Prop := r.thread.Taken r.self pendingRequestsTimer tspec

instance (r : Requests) (tspec : Nat) : Decidable (r.Taken tspec) :=
  inferInstanceAs (Decidable (r.thread.Taken r.self pendingRequestsTimer tspec))

/-- Without the requests whose deadlines have passed. -/
def unexpired (r : Requests) (now : Nat) : Requests :=
  { r with pendingRequests := r.pendingRequests.filter (now < ·.tspec) }

/-! ## The functions -/

@[simp] theorem pendingRequests_armFirst (r : Requests) : r.armFirst.pendingRequests = r.pendingRequests := by
  unfold armFirst
  split <;> rfl

@[simp] theorem self_armFirst (r : Requests) : r.armFirst.self = r.self := by
  unfold armFirst
  split <;> rfl

theorem armFirst_of_none {r : Requests} (h : r.pendingRequests.first = none) : r.armFirst = r := by
  unfold armFirst
  rw [h]

theorem armed_armFirst {r : Requests} {ta : Ctransaction} (h : r.pendingRequests.first = some ta) :
    r.armFirst.armed = if r.Taken ta.tspec then none else some ta.tspec := by
  unfold armFirst
  rw [h]
  exact Cthread.armed_addTimer_self r.thread r.self pendingRequestsTimer ta.tspec

theorem hasPendingRequest_iff {r : Requests} {xid : UInt32} :
    r.hasPendingRequest xid = true ↔ ∃ ta ∈ r.pendingRequests, ta.xid = xid := by
  simp [hasPendingRequest, Oset.mem_def]

@[simp] theorem pendingRequests_addPendingRequest (r : Requests) (ta : Ctransaction) :
    (r.addPendingRequest ta).pendingRequests = r.pendingRequests.insert ta := by
  unfold addPendingRequest
  split
  · simp [insert]
  · split <;> simp [insert]

/-- **A request with the deadline of a pending one is as if it were never
added.** -/
theorem addPendingRequest_of_mem {r : Requests} {p ta : Ctransaction} (hp : p ∈ r.pendingRequests)
    (h : p.tspec = ta.tspec) : r.addPendingRequest ta = r := by
  have hinsert : r.insert ta = r := by
    unfold insert
    rw [Oset.insert_of_mem hp h]
  unfold addPendingRequest
  split
  case h_1 hfirst => exact absurd hp (Oset.first_eq_none.mp hfirst p)
  case h_2 first hfirst => simp [hinsert, hfirst]

/-- A request with a new first deadline arms the timer. -/
theorem armed_addPendingRequest_of_lt {r : Requests} {ta : Ctransaction}
    (h : ∀ p ∈ r.pendingRequests, ta.tspec < p.tspec) (hxid : ∀ p ∈ r.pendingRequests, p.xid ≠ ta.xid) :
    (r.addPendingRequest ta).armed = if r.Taken ta.tspec then none else some ta.tspec := by
  have hfirst : (r.insert ta).pendingRequests.first = some ta := Oset.first_insert_of_lt h
  unfold addPendingRequest
  split
  case h_1 => exact armed_armFirst hfirst
  case h_2 first hmem =>
    rw [if_neg]
    · exact armed_armFirst hfirst
    · rw [hfirst]
      intro heq
      exact hxid first (Oset.mem_of_first hmem) (Option.some.inj heq).symm

/-- Any other leaves it as it is. -/
theorem armed_addPendingRequest_of_gt {r : Requests} {p ta : Ctransaction} (hp : p ∈ r.pendingRequests)
    (h : p.tspec < ta.tspec) : (r.addPendingRequest ta).armed = r.armed := by
  unfold addPendingRequest
  split
  case h_1 hfirst => exact absurd hp (Oset.first_eq_none.mp hfirst p)
  case h_2 first hfirst =>
    have hle : first.tspec ≤ p.tspec := Oset.le_of_first hfirst hp
    have hsame : (r.insert ta).pendingRequests.first = some first := Oset.first_insert_of_gt hfirst (by omega)
    rw [if_pos (by rw [hsame]; rfl)]
    rfl

theorem unexpired_of_forall {r : Requests} {now : Nat} (h : ∀ p ∈ r.pendingRequests, now < p.tspec) :
    r.unexpired now = r := by
  unfold unexpired
  rw [Oset.filter_eq_self fun p hp => decide_eq_true (h p hp)]

theorem expired_of_forall {r : Requests} {now : Nat} (h : ∀ p ∈ r.pendingRequests, now < p.tspec) :
    r.pendingRequests.elems.filter (·.tspec ≤ now) = [] := by
  refine List.filter_eq_nil_iff.mpr fun p hp => ?_
  simpa using h p hp

/-- While somebody listens the loop reports what has expired, in the order of the
deadlines, and arms the timer for the rest. -/
theorem checkLoop_registered {now fuel : Nat} {r : Requests} (h : r.pendingRequests.size < fuel) :
    checkLoop now true fuel r =
      ((r.unexpired now).armFirst, r.pendingRequests.elems.filter (·.tspec ≤ now)) := by
  induction fuel generalizing r with
  | zero => omega
  | succ fuel ih =>
    unfold checkLoop
    cases hfirst : r.pendingRequests.first with
    | none =>
      have hnone : ∀ p ∈ r.pendingRequests, now < p.tspec := fun p hp => absurd hp (Oset.first_eq_none.mp hfirst p)
      rw [unexpired_of_forall hnone, expired_of_forall hnone, armFirst_of_none hfirst]
    | some ta =>
      by_cases hnow : now < ta.tspec
      · have hall : ∀ p ∈ r.pendingRequests, now < p.tspec := fun p hp => hnow.trans_le (Oset.le_of_first hfirst hp)
        simp [hnow, unexpired_of_forall hall, expired_of_forall hall]
      · have herase : (r.pendingRequests.eraseFirst.filter fun p => decide (now < p.tspec)) =
            r.pendingRequests.filter fun p => decide (now < p.tspec) := Oset.filter_eraseFirst hfirst (by simpa using hnow)
        have hsize : r.pendingRequests.eraseFirst.size < fuel := by
          have hlength := congrArg List.length (Oset.elems_of_first hfirst)
          simp only [List.length_cons] at hlength
          unfold Oset.size at h ⊢
          omega
        have hrec := ih (r := { r with pendingRequests := r.pendingRequests.eraseFirst }) hsize
        have helems := Oset.elems_of_first hfirst
        simp only [hnow, if_false, if_true, hrec, unexpired, herase]
        rw [helems, List.filter_cons_of_pos (by simpa using hnow)]

theorem checkPendingRequests_registered (r : Requests) (now : Nat) : r.checkPendingRequests now true =
    ((r.unexpired now).armFirst, r.pendingRequests.elems.filter (·.tspec ≤ now)) :=
  checkLoop_registered (Nat.lt_succ_self _)

/-- Where nothing has expired nobody is called. -/
theorem checkPendingRequests_of_unexpired {r : Requests} {now : Nat} (h : ∀ p ∈ r.pendingRequests, now < p.tspec)
    (registered : Bool) : r.checkPendingRequests now registered = r.checkPendingRequests now true := by
  unfold checkPendingRequests checkLoop
  cases hfirst : r.pendingRequests.first with
  | none => rfl
  | some ta => simp [h ta (Oset.mem_of_first hfirst)]

/-- Where something has, and nobody is there to call, the first request is gone
and not reported. -/
theorem checkPendingRequests_unregistered {r : Requests} {now : Nat} {p : Ctransaction} (hp : p ∈ r.pendingRequests)
    (h : p.tspec ≤ now) : (r.checkPendingRequests now false).2 = [] := by
  unfold checkPendingRequests checkLoop
  cases hfirst : r.pendingRequests.first with
  | none => rfl
  | some ta =>
    have hle : ta.tspec ≤ p.tspec := Oset.le_of_first hfirst hp
    have hnot : ¬ now < ta.tspec := by omega
    simp [hnot]

/-- The deadline of the first request to expire after a time. -/
def nextDeadline (r : Requests) (now : Nat) : Option Nat := (r.unexpired now).pendingRequests.first.map Ctransaction.tspec

/-- Somebody is there to be called for the requests that have expired, and no
timer is in the way of the next deadline. -/
def CheckOk (r : Requests) (now : Nat) (registered : Bool) : Prop :=
  (registered = true ∨ ∀ p ∈ r.pendingRequests.elems, now < p.tspec) ∧
    ∀ tspec ∈ r.nextDeadline now, ¬ r.Taken tspec

instance (r : Requests) (now : Nat) (registered : Bool) : Decidable (r.CheckOk now registered) := instDecidableAnd

/-- No pending request has the deadline and, where it is the first, no timer is
in its way. -/
def AddOk (r : Requests) (ta : Ctransaction) : Prop :=
  (∀ p ∈ r.pendingRequests.elems, p.tspec ≠ ta.tspec) ∧
    ((∀ p ∈ r.pendingRequests.elems, ta.tspec < p.tspec) → ¬ r.Taken ta.tspec)

instance (r : Requests) (ta : Ctransaction) : Decidable (r.AddOk ta) := instDecidableAnd

end Requests

/-! ## What the requests are for -/

/-- The requests beside a record of what they should come to: those outstanding,
those whose deadlines have passed, and those reported to have timed out. -/
structure Ledger where
  requests : Requests
  added : List UInt32
  outstanding : List Ctransaction
  passed : List Ctransaction
  reported : List Ctransaction

namespace Ledger

inductive Act
  | add (ta : Ctransaction)
  /-- A message with the xid is received. -/
  | drop (xid : UInt32)
  | check (now : Nat) (registered : Bool)
  /-- The thread turns to its first timer, which has expired. -/
  | timeout (now : Nat) (registered : Bool)
  /-- Any other timer is added or dropped. -/
  | addTimer (env id tspec : Nat)
  | dropTimer (env id : Nat)
deriving DecidableEq, Repr

def withThread (s : Ledger) (thread : Cthread) : Ledger := { s with requests := { s.requests with thread := thread } }

def add (s : Ledger) (ta : Ctransaction) : Ledger :=
  { s with
    requests := s.requests.addPendingRequest ta
    added := ta.xid :: s.added
    outstanding := ta :: s.outstanding }

def drop (s : Ledger) (xid : UInt32) : Ledger :=
  { s with
    requests := s.requests.dropPendingRequest xid
    outstanding := s.outstanding.filter (·.xid != xid) }

def check (s : Ledger) (now : Nat) (registered : Bool) : Ledger :=
  { s with
    requests := (s.requests.checkPendingRequests now registered).1
    outstanding := s.outstanding.filter (now < ·.tspec)
    passed := s.passed ++ s.outstanding.filter (·.tspec ≤ now)
    reported := s.reported ++ (s.requests.checkPendingRequests now registered).2 }

/-- Whether it is the timer of the pending requests. -/
def Own (s : Ledger) (env id : Nat) : Prop := env = s.requests.self ∧ id = Requests.pendingRequestsTimer

instance (s : Ledger) (env id : Nat) : Decidable (s.Own env id) := instDecidableAnd

def timeout (s : Ledger) (now : Nat) (registered : Bool) : Option Ledger :=
  (s.requests.thread.nextExpired now).map fun (t, thread) =>
    if s.Own t.timerEnv t.timerId then (s.withThread thread).check now registered else s.withThread thread

def step (s : Ledger) : Act → Option Ledger
  | .add ta => if ta.xid ∈ s.added then none else some (s.add ta)
  | .drop xid => some (s.drop xid)
  | .check now registered => some (s.check now registered)
  | .timeout now registered => s.timeout now registered
  | .addTimer env id tspec =>
    if s.Own env id then none else some (s.withThread (s.requests.thread.addTimer env id tspec))
  | .dropTimer env id => if s.Own env id then none else some (s.withThread (s.requests.thread.dropTimer env id))

def new (self : Nat) (thread : Cthread) : Ledger := ⟨.new self thread, [], [], [], []⟩

/-- The requests pending are those outstanding, those reported those whose
deadlines have passed, each once, and the timer is armed in time. -/
structure Exact (s : Ledger) : Prop where
  has : ∀ xid, s.requests.hasPendingRequest xid = true ↔ ∃ ta ∈ s.outstanding, ta.xid = xid
  reported : s.reported.Perm s.passed
  once : (s.passed.map Ctransaction.xid).Nodup
  timer : ∀ ta ∈ s.outstanding, ∃ tspec, s.requests.armed = some tspec ∧ tspec ≤ ta.tspec

/-- When the step does what it should. -/
def Ok (s : Ledger) : Act → Prop
  | .add ta => s.requests.AddOk ta
  | .check now registered => s.requests.CheckOk now registered
  | .timeout now registered =>
    match s.requests.thread.nextExpired now with
    | none => True
    | some (t, thread) =>
      s.Own t.timerEnv t.timerId → (s.withThread thread).requests.CheckOk now registered
  | .drop _ | .addTimer _ _ _ | .dropTimer _ _ => True

instance (s : Ledger) (a : Act) : Decidable (s.Ok a) :=
  match a with
  | .add ta => inferInstanceAs (Decidable (s.requests.AddOk ta))
  | .check now registered => inferInstanceAs (Decidable (s.requests.CheckOk now registered))
  | .timeout now registered =>
    match h : s.requests.thread.nextExpired now with
    | none => isTrue (by simp [Ok, h])
    | some (t, thread) =>
      decidable_of_iff (s.Own t.timerEnv t.timerId → (s.withThread thread).requests.CheckOk now registered)
        (by simp [Ok, h])
  | .drop _ | .addTimer _ _ _ | .dropTimer _ _ => isTrue trivial

/-- The set holds what is outstanding, and what has passed is reported. -/
structure Recorded (s : Ledger) : Prop where
  pending : s.requests.pendingRequests.elems.Perm s.outstanding
  reported : s.reported.Perm s.passed
  added : ∀ ta ∈ s.passed ++ s.outstanding, ta.xid ∈ s.added
  distinct : ((s.passed ++ s.outstanding).map Ctransaction.xid).Nodup

/-- What is kept while every step does what it should. -/
structure Inv (s : Ledger) : Prop extends Recorded s where
  timer : ∀ ta ∈ s.outstanding, ∃ tspec, s.requests.armed = some tspec ∧ tspec ≤ ta.tspec

theorem Inv.new (self : Nat) (thread : Cthread) : Inv (new self thread) where
  pending := .refl _
  reported := .refl _
  added := by simp [Ledger.new]
  distinct := by simp [Ledger.new]
  timer := by simp [Ledger.new]

theorem Recorded.mem_iff {s : Ledger} (h : Recorded s) {ta : Ctransaction} :
    ta ∈ s.requests.pendingRequests ↔ ta ∈ s.outstanding := h.pending.mem_iff

theorem Inv.exact {s : Ledger} (h : Inv s) : Exact s where
  has xid := by simp only [Requests.hasPendingRequest_iff, h.mem_iff]
  reported := h.reported
  once := by
    have hdistinct := h.distinct
    rw [List.map_append] at hdistinct
    exact (List.nodup_append.mp hdistinct).1
  timer := h.timer

/-! ## add_pending_request -/

theorem Recorded.add {s : Ledger} (h : Recorded s) {ta : Ctransaction} (hnew : ta.xid ∉ s.added)
    (hok : ∀ p ∈ s.requests.pendingRequests, p.tspec ≠ ta.tspec) : Recorded (s.add ta) where
  pending := by
    have hperm := (Oset.insert_perm hok).trans (h.pending.cons ta)
    simpa [Ledger.add] using hperm
  reported := h.reported
  added := by
    intro p hp
    have hmem : p ∈ ta :: (s.passed ++ s.outstanding) := List.perm_middle.mem_iff.mp hp
    cases List.mem_cons.mp hmem with
    | inl heq => simp [Ledger.add, heq]
    | inr hmem => exact List.mem_cons_of_mem _ (h.added p hmem)
  distinct := by
    have hperm : ((s.add ta).passed ++ (s.add ta).outstanding).Perm (ta :: (s.passed ++ s.outstanding)) :=
      List.perm_middle
    rw [(hperm.map _).nodup_iff, List.map_cons, List.nodup_cons]
    refine ⟨fun hmem => ?_, h.distinct⟩
    obtain ⟨p, hp, hxid⟩ := List.mem_map.mp hmem
    exact hnew (hxid ▸ h.added p hp)

/-- A new xid is no pending one. -/
theorem Recorded.xid_ne {s : Ledger} (h : Recorded s) {ta : Ctransaction} (hnew : ta.xid ∉ s.added) :
    ∀ p ∈ s.requests.pendingRequests, p.xid ≠ ta.xid := by
  intro p hp hxid
  exact hnew (hxid ▸ h.added p (List.mem_append_right _ (h.mem_iff.mp hp)))

theorem Inv.add {s : Ledger} (h : Inv s) {ta : Ctransaction} (hnew : ta.xid ∉ s.added)
    (hok : s.requests.AddOk ta) : Inv (s.add ta) where
  toRecorded := h.toRecorded.add hnew hok.1
  timer := by
    intro p hp
    have hp := List.mem_cons.mp hp
    by_cases hfirst : ∀ q ∈ s.requests.pendingRequests, ta.tspec < q.tspec
    · have harmed : (s.add ta).requests.armed = some ta.tspec := by
        change (s.requests.addPendingRequest ta).armed = _
        rw [Requests.armed_addPendingRequest_of_lt hfirst (h.xid_ne hnew), if_neg (hok.2 hfirst)]
      refine ⟨ta.tspec, harmed, ?_⟩
      cases hp with
      | inl heq => rw [heq]
      | inr hmem => exact (hfirst p (h.mem_iff.mpr hmem)).le
    · -- a request before the new one has the timer armed for it
      obtain ⟨q, hq, hle⟩ : ∃ q ∈ s.requests.pendingRequests, q.tspec ≤ ta.tspec := by
        simpa using hfirst
      have hlt : q.tspec < ta.tspec := by
        have := hok.1 q hq
        omega
      have harmed : (s.add ta).requests.armed = s.requests.armed :=
        Requests.armed_addPendingRequest_of_gt hq hlt
      rw [harmed]
      cases hp with
      | inl heq =>
        obtain ⟨tspec, htspec, hle⟩ := h.timer q (h.mem_iff.mp hq)
        exact ⟨tspec, htspec, by rw [heq]; omega⟩
      | inr hmem => exact h.timer p hmem

theorem Inv.addOk {s : Ledger} (h : Inv s) {ta : Ctransaction} (hnew : ta.xid ∉ s.added) (hx : Exact (s.add ta)) :
    s.requests.AddOk ta := by
  have hout : ta ∈ (s.add ta).outstanding := List.mem_cons_self
  constructor
  · intro p hp heq
    have hsame : (s.add ta).requests = s.requests := Requests.addPendingRequest_of_mem hp heq
    have hhas := (hx.has ta.xid).mpr ⟨ta, hout, rfl⟩
    rw [hsame] at hhas
    obtain ⟨q, hq, hxid⟩ := Requests.hasPendingRequest_iff.mp hhas
    exact h.xid_ne hnew q hq hxid
  · intro hfirst htaken
    obtain ⟨tspec, harmed, -⟩ := hx.timer ta hout
    have hnone : (s.add ta).requests.armed = none := by
      change (s.requests.addPendingRequest ta).armed = _
      rw [Requests.armed_addPendingRequest_of_lt hfirst (h.xid_ne hnew), if_pos htaken]
    rw [hnone] at harmed
    cases harmed

/-! ## drop_pending_request -/

theorem Inv.drop {s : Ledger} (h : Inv s) (xid : UInt32) : Inv (s.drop xid) where
  pending := h.pending.filter _
  reported := h.reported
  added := by
    intro p hp
    refine h.added p ?_
    cases List.mem_append.mp hp with
    | inl hp => exact List.mem_append_left _ hp
    | inr hp => exact List.mem_append_right _ (List.mem_filter.mp hp).1
  distinct := by
    have hsub : ((s.drop xid).passed ++ (s.drop xid).outstanding).Sublist (s.passed ++ s.outstanding) :=
      (List.Sublist.refl _).append List.filter_sublist
    exact h.distinct.sublist (hsub.map _)
  timer p hp := h.timer p (List.mem_filter.mp hp).1

/-! ## check_pending_requests -/

theorem Recorded.check {s : Ledger} (h : Recorded s) (now : Nat) : Recorded (s.check now true) := by
  have hsplit : (s.outstanding.filter (·.tspec ≤ now) ++ s.outstanding.filter (now < ·.tspec)).Perm s.outstanding := by
    have hperm := List.filter_append_perm (fun ta : Ctransaction => decide (ta.tspec ≤ now)) s.outstanding
    simpa only [← decide_not, not_le] using hperm
  have hall : ((s.check now true).passed ++ (s.check now true).outstanding).Perm (s.passed ++ s.outstanding) := by
    have hperm := hsplit.append_left s.passed
    rwa [← List.append_assoc] at hperm
  have hchecked := Requests.checkPendingRequests_registered s.requests now
  exact {
    pending := by
      have hperm := h.pending.filter (now < ·.tspec)
      simpa [Ledger.check, hchecked, Requests.unexpired, Oset.filter] using hperm
    reported := by
      have hperm := h.reported.append (h.pending.filter (·.tspec ≤ now))
      simpa [Ledger.check, hchecked] using hperm
    added := fun p hp => h.added p (hall.mem_iff.mp hp)
    distinct := (hall.map _).nodup_iff.mpr h.distinct }

/-- After a check the timer is armed in time exactly when no other is in its way. -/
theorem Recorded.check_timer_iff {s : Ledger} (h : Recorded s) (now : Nat) :
    (∀ ta ∈ (s.check now true).outstanding, ∃ tspec,
      (s.check now true).requests.armed = some tspec ∧ tspec ≤ ta.tspec) ↔
      ∀ tspec ∈ s.requests.nextDeadline now, ¬ s.requests.Taken tspec := by
  have harmed : (s.check now true).requests.armed = ((s.requests.unexpired now).armFirst).armed := by
    rw [Ledger.check, Requests.checkPendingRequests_registered]
  have hmem : ∀ ta, ta ∈ (s.requests.unexpired now).pendingRequests ↔ ta ∈ (s.check now true).outstanding := by
    intro ta
    simp [Requests.unexpired, Ledger.check, h.mem_iff]
  rw [harmed]
  constructor
  · intro htimer tspec hnext htaken
    obtain ⟨first, hfirst, rfl⟩ := Option.map_eq_some_iff.mp hnext
    obtain ⟨tspec, hsome, -⟩ := htimer first ((hmem first).mp (Oset.mem_of_first hfirst))
    have hnone : ((s.requests.unexpired now).armFirst).armed = none := by
      rw [Requests.armed_armFirst hfirst]
      exact if_pos htaken
    rw [hnone] at hsome
    cases hsome
  · intro hfree ta hta
    cases hfirst : (s.requests.unexpired now).pendingRequests.first with
    | none => exact absurd ((hmem ta).mpr hta) (Oset.first_eq_none.mp hfirst ta)
    | some first =>
      have hnext : first.tspec ∈ s.requests.nextDeadline now := Option.map_eq_some_iff.mpr ⟨first, hfirst, rfl⟩
      refine ⟨first.tspec, ?_, Oset.le_of_first hfirst ((hmem ta).mpr hta)⟩
      rw [Requests.armed_armFirst hfirst]
      exact if_neg (hfree first.tspec hnext)

/-- The environment matters only where something has expired. -/
theorem check_eq {s : Ledger} {now : Nat} {registered : Bool}
    (h : registered = true ∨ ∀ p ∈ s.requests.pendingRequests, now < p.tspec) :
    s.check now registered = s.check now true := by
  cases h with
  | inl h => rw [h]
  | inr h => rw [check, check, Requests.checkPendingRequests_of_unexpired h]

theorem Recorded.check_inv {s : Ledger} (h : Recorded s) {now : Nat} {registered : Bool}
    (hok : s.requests.CheckOk now registered) : Inv (s.check now registered) := by
  rw [check_eq hok.1]
  exact ⟨h.check now, (h.check_timer_iff now).mpr hok.2⟩

theorem Recorded.checkOk {s : Ledger} (h : Recorded s) {now : Nat} {registered : Bool}
    (hx : Exact (s.check now registered)) : s.requests.CheckOk now registered := by
  have hreg : registered = true ∨ ∀ p ∈ s.requests.pendingRequests, now < p.tspec := by
    by_contra hno
    push Not at hno
    obtain ⟨hreg, p, hp, hle⟩ := hno
    obtain rfl : registered = false := by simpa using hreg
    -- nobody is called, though there is a deadline that has passed
    have hnil := Requests.checkPendingRequests_unregistered hp hle
    have hlength := hx.reported.length_eq
    simp only [Ledger.check, hnil, List.append_nil, List.length_append, h.reported.length_eq] at hlength
    have hmem : p ∈ s.outstanding.filter (·.tspec ≤ now) :=
      List.mem_filter.mpr ⟨h.mem_iff.mp hp, decide_eq_true hle⟩
    have := List.length_pos_of_mem hmem
    omega
  rw [check_eq hreg] at hx
  exact ⟨hreg, (h.check_timer_iff now).mp hx.timer⟩

/-! ## The timers of the thread -/

/-- What changes other timers only keeps the requests as they are. -/
theorem Inv.withThread {s : Ledger} (h : Inv s) {thread : Cthread}
    (harmed : (s.withThread thread).requests.armed = s.requests.armed) : Inv (s.withThread thread) where
  toRecorded := ⟨h.pending, h.reported, h.added, h.distinct⟩
  timer ta hta := by
    rw [harmed]
    exact h.timer ta hta

theorem Recorded.withThread {s : Ledger} (h : Recorded s) (thread : Cthread) : Recorded (s.withThread thread) :=
  ⟨h.pending, h.reported, h.added, h.distinct⟩

/-! ## Runs -/

theorem Inv.step {s s' : Ledger} {a : Act} (h : Inv s) (hok : s.Ok a) (hstep : s.step a = some s') : Inv s' := by
  cases a with
  | add ta =>
    simp only [Ledger.step] at hstep
    split_ifs at hstep with hnew
    obtain rfl := Option.some.inj hstep
    exact h.add hnew hok
  | drop xid =>
    obtain rfl := Option.some.inj hstep
    exact h.drop xid
  | check now registered =>
    obtain rfl := Option.some.inj hstep
    exact h.toRecorded.check_inv hok
  | timeout now registered =>
    obtain ⟨⟨t, thread⟩, hnext, heq⟩ := Option.map_eq_some_iff.mp hstep
    subst heq
    by_cases hown : s.Own t.timerEnv t.timerId
    · have hok : (s.withThread thread).requests.CheckOk now registered := by
        simp only [Ok, hnext] at hok
        exact hok hown
      simp only [hown, if_true]
      exact (h.toRecorded.withThread thread).check_inv hok
    · simp only [hown, if_false]
      exact h.withThread (Cthread.armed_nextExpired_of_not_is hnext hown)
  | addTimer env id tspec =>
    simp only [Ledger.step] at hstep
    split_ifs at hstep with hown
    obtain rfl := Option.some.inj hstep
    exact h.withThread (Cthread.armed_addTimer_of_ne hown)
  | dropTimer env id =>
    simp only [Ledger.step] at hstep
    split_ifs at hstep with hown
    obtain rfl := Option.some.inj hstep
    exact h.withThread (Cthread.armed_dropTimer_of_ne hown)

theorem Inv.ok {s s' : Ledger} {a : Act} (h : Inv s) (hstep : s.step a = some s') (hx : Exact s') : s.Ok a := by
  cases a with
  | add ta =>
    simp only [Ledger.step] at hstep
    split_ifs at hstep with hnew
    obtain rfl := Option.some.inj hstep
    exact h.addOk hnew hx
  | check now registered =>
    obtain rfl := Option.some.inj hstep
    exact h.toRecorded.checkOk hx
  | timeout now registered =>
    obtain ⟨⟨t, thread⟩, hnext, heq⟩ := Option.map_eq_some_iff.mp hstep
    subst heq
    simp only [Ok, hnext]
    intro hown
    simp only [hown, if_true] at hx
    exact (h.toRecorded.withThread thread).checkOk hx
  | drop | addTimer | dropTimer => trivial

/-- **The requests come to what they should, in every state of a run, exactly
when no step of it adds a request with the deadline of a pending one, arms the
timer for a time at which another object has one of its id, or checks expired
requests while nobody listens.** -/
theorem exact_iff_meets {self : Nat} {thread : Cthread} {as : List Act} {t : Ledger}
    (h : Runs.run step (new self thread) as = some t) :
    Runs.Along step (fun _ _ s => Exact s) (new self thread) as ↔ Runs.Meets step Ok (new self thread) as := by
  have keep : ∀ s a s', Inv s → s.Ok a → s.step a = some s' → Inv s' := fun s a s' hs hok hstep => hs.step hok hstep
  constructor
  · intro hQ
    exact Runs.meets_of_along keep (fun s a s' hs hstep hx => hs.ok hstep hx) (.new self thread) h hQ
  · intro hok
    exact Runs.along_of_meets keep (fun s a s' hs hok hstep => (hs.step hok hstep).exact) (.new self thread) hok

/-- Three requests, one of which is replied to. -/
theorem exact_iff_meets_three : ∃ t, Runs.run step (new 0 .new) [.add ⟨1, 30, 18, 0⟩, .add ⟨2, 20, 20, 0⟩,
      .add ⟨3, 40, 20, 0⟩, .drop 2, .timeout 20 true, .timeout 35 true] = some t ∧
    t.reported = [⟨1, 30, 18, 0⟩] ∧ t.requests.armed = some 40 ∧
    Runs.Along step (fun _ _ s => Exact s) (new 0 .new) [.add ⟨1, 30, 18, 0⟩, .add ⟨2, 20, 20, 0⟩,
      .add ⟨3, 40, 20, 0⟩, .drop 2, .timeout 20 true, .timeout 35 true] :=
  ⟨_, rfl, by decide +kernel, by decide +kernel, (exact_iff_meets rfl).mpr (by decide +kernel)⟩

/-- Of two requests with one deadline the second is neither pending nor ever
reported. -/
theorem equal_deadlines : ∃ s t, Runs.run step (new 0 .new) [.add ⟨1, 10, 20, 0⟩, .add ⟨2, 10, 20, 0⟩] = some s ∧
    s.requests.hasPendingRequest 2 = false ∧ s.step (.timeout 10 true) = some t ∧
    t.passed = [⟨2, 10, 20, 0⟩, ⟨1, 10, 20, 0⟩] ∧ t.reported = [⟨1, 10, 20, 0⟩] ∧ ¬ Exact s ∧ ¬ Exact t := by
  refine ⟨_, _, rfl, by decide +kernel, rfl, by decide +kernel, by decide +kernel, fun hx => ?_, fun hx => ?_⟩
  · have hpending := (hx.has 2).mpr ⟨⟨2, 10, 20, 0⟩, by decide +kernel, rfl⟩
    exact absurd hpending (by decide +kernel)
  · exact absurd hx.reported.length_eq (by decide +kernel)

end Ledger

end RoflCommon
