/-
Whether a received message can be left in its queue: with the connection in
`STATE_ESTABLISHED` and nobody at work, either all queues are empty or a
wakeup of the thread of the connection is pending.

So it is in the runs in which every step meets `Waking`
(`no_lost_rx_wakeup`). A message needs no wakeup while the RX thread is still
to make its test (`signals`), or while the thread of the connection is still
to come to its queue (`covers`); the condition is that no step ends that with
a message left: `STATE_ESTABLISHED` is entered with messages stored before, in
`STATE_NEGOTIATING2`; the RX thread finds `rx_thread_working` set when the
last round has passed the queue; an exception ends the last round.
-/
import RoflCommon.Crofconn.RxThreads
import RoflCommon.Lib.Runs

namespace RoflCommon

variable {α : Type}

/-- The RX thread is still to make its test of `rx_thread_working`. -/
def RecvPc.signals : RecvPc α → Bool
  | .capacity _ | .rxDisable | .dropReadFd | .testState | .testWorking | .wakeup => true
  | .idle | .dispatch _ | .store _ => false

/-- The thread of the connection is still to come to the end of queue `q`. -/
def HandlerPc.covers : HandlerPc α → QueueId → Bool
  | .entry, _ => true
  | .queue again q', q | .test again q', q | .item again q' _, q | .retrieve again q' _, q
  | .deliver again q' _ _, q | .queueEnd again q', q => again || q'.toNat ≤ q.toNat
  | .roundEnd again, _ => again
  | .idle, _ | .stop, _ | .finish, _ | .testDisabled, _ | .rxEnable, _ | .addReadFd, _ => false

namespace RxConn

/-- Nobody is at work and messages are left without a wakeup, unless this holds. -/
def NoneStranded (s : RxConn α) : Prop :=
  s.state = .established → s.recv = .idle → s.handler = .idle →
    (∀ q, (s.rxqueues q).queue = []) ∨ s.wakeup = true

/-- The thread of the connection will come to every message. -/
def Covered (s : RxConn α) : Prop :=
  ∀ q, (s.rxqueues q).queue ≠ [] → s.wakeup = true ∨ s.handler.covers q = true

/-- Somebody sees to every message. -/
def Watched (s : RxConn α) : Prop := s.state = .established → s.recv.signals = true ∨ Covered s

/-- An exception that ends the loops, unlike a `std::runtime_error` in the
first round. -/
def endsLoops : HandlerPc α → Outcome → Bool
  | .deliver again _ _ _, .throws e | .deliver again _ _ _, .fails e => !(again && e == .runtimeError)
  | _, _ => false

/-- What keeps every message from being left behind. -/
def Waking (s : RxConn α) : Act α → Prop
  | .enter state => state = .established → s.state ≠ .established → s.recv.signals = true ∨ Covered s
  | .recv => s.recv = .testWorking → s.rxThreadWorking = true → s.state = .established → Covered s
  | .handler outcome => endsLoops s.handler outcome = true → s.state = .established →
      s.recv.signals = true ∨ ((∀ q, (s.rxqueues q).queue = []) ∨ s.wakeup = true)
  | _ => True

variable {s s' : RxConn α}

/-- With no message added, who came to every message still does, or has set
off a wakeup. -/
theorem Covered.mono (h : Covered s) (hqueues : ∀ q, (s'.rxqueues q).queue ≠ [] → (s.rxqueues q).queue ≠ [])
    (hwakeup : s.wakeup = true → s'.wakeup = true)
    (hcovers : ∀ q, (s'.rxqueues q).queue ≠ [] → s.handler.covers q = true →
      s'.wakeup = true ∨ s'.handler.covers q = true) : Covered s' := by
  intro q hq
  rcases h q (hqueues q hq) with hw | hc
  · exact .inl (hwakeup hw)
  · exact hcovers q hq hc

theorem covers_nextQueue (again : Bool) {q q' : QueueId} (hne : q' ≠ q)
    (h : (again || decide (q.toNat ≤ q'.toNat)) = true) : (nextQueue again q : HandlerPc α).covers q' = true := by
  cases again
  · cases q <;> cases q' <;> first | exact absurd rfl hne | simp_all [nextQueue, QueueId.next, QueueId.toNat,
      HandlerPc.covers]
  · cases q <;> rfl

theorem covers_nextItem (again : Bool) (q : QueueId) (n : Nat) (q' : QueueId) :
    (nextItem again q n : HandlerPc α).covers q' = (again || decide (q.toNat ≤ q'.toNat)) := by
  unfold nextItem
  split <;> rfl

theorem covers_again (q : QueueId) : (HandlerPc.queue false .oam : HandlerPc α).covers q = true := by
  cases q <;> rfl

/-- Queues, wakeup and RX thread are as before, and no queue is passed. -/
theorem Watched.of_same (h : Watched s) (hstate : s'.state = s.state) (hrecv : s'.recv = s.recv)
    (hqueues : s'.rxqueues = s.rxqueues) (hwakeup : s'.wakeup = s.wakeup)
    (hcovers : ∀ q, s.handler.covers q = true → s'.handler.covers q = true) : Watched s' := by
  intro hest
  rw [hrecv]
  refine (h (hstate ▸ hest)).imp_right fun hc => hc.mono (fun q hq => hqueues ▸ hq) (fun hw => hwakeup ▸ hw) ?_
  exact fun q _ hcov => .inr (hcovers q hcov)

/-! ## The RX thread -/

/-- Once the RX thread is past the store, or the message is covered. -/
theorem Watched.of_signals (h : s.recv.signals = true) : Watched s := fun _ => .inl h

theorem Watched.runRecv (h : Watched s) (hok : Waking s .recv) (hs : s.runRecv = some s') : Watched s' := by
  unfold RxConn.runRecv at hs
  split at hs
  next => cases hs
  next m hpc =>
    obtain rfl := Option.some.inj hs
    intro hest
    refine .inr ((h hest).resolve_left ?_)
    rw [hpc]
    nofun
  next m hpc =>
    split at hs
    · obtain rfl := Option.some.inj hs
      intro hest
      refine .inr ((h hest).resolve_left ?_)
      rw [hpc]
      nofun
    · obtain ⟨queue, -, rfl⟩ := Option.map_eq_some_iff.mp hs
      exact .of_signals rfl
  next q hpc =>
    obtain rfl := Option.some.inj hs
    refine .of_signals ?_
    dsimp only
    split <;> rfl
  next hpc =>
    obtain rfl := Option.some.inj hs
    exact .of_signals rfl
  next hpc =>
    obtain rfl := Option.some.inj hs
    exact .of_signals rfl
  next hpc =>
    obtain rfl := Option.some.inj hs
    intro hest
    exact .inl (by simp [show s.state = .established from hest, RecvPc.signals])
  next hpc =>
    obtain rfl := Option.some.inj hs
    by_cases hworking : s.rxThreadWorking = true
    · exact fun hest => .inr (hok hpc hworking hest)
    · exact .of_signals (by simp [hworking, RecvPc.signals])
  next hpc =>
    obtain rfl := Option.some.inj hs
    exact fun _ => .inr fun _ _ => .inl rfl

/-! ## The thread of the connection -/

/-- A step of the thread of the connection that takes no message out. -/
theorem Watched.goesTo (h : Watched s) {pc : HandlerPc α}
    (hcovers : s.state = .established → ∀ q, (s.rxqueues q).queue ≠ [] → s.handler.covers q = true →
      pc.covers q = true) : Watched { s with handler := pc } := fun hest =>
  (h hest).imp_right fun hc => hc.mono (fun _ hq => hq) id fun q hq hcov => .inr (hcovers hest q hq hcov)

theorem Watched.deliver (h : Watched s) {again : Bool} {q : QueueId} {n : Nat} {m : Received α}
    {outcome : Outcome} (hpc : s.handler = .deliver again q n m) (hok : Waking s (.handler outcome)) :
    Watched (s.runDeliver again q n m outcome) := by
  obtain ⟨segments, handed, heq⟩ := runDeliver_eq s again q n m outcome
  rw [heq]
  have hmoved : Watched { s with handler := afterMessage again q n outcome } := by
    by_cases hends : endsLoops s.handler outcome = true
    · -- nobody comes to the queues any more
      intro hest
      refine (hok hends hest).imp_right fun hleft q' hq' => ?_
      rcases hleft with hempty | hwakeup
      · exact absurd (hempty q') hq'
      · exact .inl hwakeup
    · refine h.goesTo fun _ q' _ hcov => ?_
      rw [hpc] at hcov hends
      cases outcome with
      | returns => exact (covers_nextItem again q n q').trans hcov
      | throws e | fails e =>
        obtain ⟨rfl, rfl⟩ : again = true ∧ e = .runtimeError := by simpa [endsLoops] using hends
        exact covers_again q'
  exact hmoved

theorem Watched.runHandler {outcome : Outcome} (h : Watched s) (hok : Waking s (.handler outcome))
    (hs : s.runHandler outcome = some s') : Watched s' := by
  unfold RxConn.runHandler at hs
  split at hs
  next => cases hs
  next hpc =>
    obtain rfl := Option.some.inj hs
    exact fun _ => .inr fun q _ => .inr rfl
  next again q hpc =>
    obtain rfl := Option.some.inj hs
    refine h.goesTo fun hest q' _ hcov => ?_
    rw [hpc] at hcov
    rw [if_pos hest]
    exact hcov
  next again q hpc =>
    obtain rfl := Option.some.inj hs
    refine h.goesTo fun hest q' hq' hcov => ?_
    rw [hpc] at hcov
    split
    next hempty =>
      refine covers_nextQueue again (fun heq => hq' ?_) hcov
      rw [heq]
      exact Crofqueue.empty_iff.mp hempty
    next => exact hcov
  next again q n hpc =>
    obtain rfl := Option.some.inj hs
    refine h.goesTo fun hest q' _ hcov => ?_
    rw [hpc] at hcov
    rw [if_pos hest]
    exact hcov
  next again q n hpc =>
    split at hs
    · obtain rfl := Option.some.inj hs
      refine h.goesTo fun _ q' _ hcov => ?_
      rw [hpc] at hcov
      exact hcov
    next m rest hretrieve =>
      obtain rfl := Option.some.inj hs
      refine fun hest => (h hest).imp_right fun hc => hc.mono (fun q' hq' => ?_) id fun q' _ hcov => .inr ?_
      · by_cases hq : q' = q
        · subst hq
          rw [Crofqueue.retrieve_eq_some hretrieve]
          exact List.cons_ne_nil _ _
        · simpa [hq] using hq'
      · rw [hpc] at hcov
        exact hcov
  next again q n m hpc =>
    obtain rfl := Option.some.inj hs
    exact h.deliver hpc hok
  next again q hpc =>
    obtain rfl := Option.some.inj hs
    refine fun hest => (h hest).imp_right fun hc => hc.mono (fun _ hq' => hq') (fun hw => by simp [hw])
      fun q' hq' hcov => ?_
    rw [hpc] at hcov
    by_cases heq : q' = q
    · subst heq
      have hne : (s.rxqueues q').empty = false := by
        rw [← Bool.not_eq_true, Crofqueue.empty_iff]
        exact hq'
      exact .inl (by simp [hne])
    · exact .inr (covers_nextQueue again heq hcov)
  next again hpc =>
    obtain rfl := Option.some.inj hs
    refine h.goesTo fun hest q' _ hcov => ?_
    rw [hpc] at hcov
    obtain rfl : again = true := hcov
    rw [if_pos hest]
    exact covers_again q'
  -- past all queues
  all_goals
    next hpc =>
      obtain rfl := Option.some.inj hs
      exact h.of_same rfl rfl rfl rfl (by rw [hpc]; nofun)

/-! ## Runs -/

/-- A call of `handle_recv` begins. -/
theorem Watched.handleRecv (h : Watched s) (hidle : s.recv = .idle) (m : Received α) :
    Watched { s with recv := .dispatch m } := by
  intro hest
  refine .inr ((h hest).resolve_left ?_)
  rw [hidle]
  nofun

theorem Watched.enter {state : ConnState} (h : Watched s) (hok : Waking s (.enter state)) :
    Watched (s.enter state) := by
  unfold RxConn.enter
  split
  · exact h
  next hne =>
    cases state with
    | established =>
      intro _
      exact hok rfl hne
    | negotiationFailed | closing | disconnected | connectPending | acceptPending | connectFailed
    | connectRefused | acceptFailed | acceptRefused | negotiating | negotiating2 =>
      intro hest
      cases hest

theorem Watched.step {a : Act α} (h : Watched s) (hok : Waking s a) (hs : s.step a = some s') : Watched s' := by
  unfold RxConn.step at hs
  cases a with
  | handleRecv m =>
    dsimp only at hs
    split at hs
    next hidle =>
      obtain rfl := Option.some.inj hs
      exact h.handleRecv hidle m
    · cases hs
  | recv => exact h.runRecv hok hs
  | handleWakeup =>
    dsimp only at hs
    split at hs
    · split at hs
      · obtain rfl := Option.some.inj hs
        exact fun _ => .inr fun _ _ => .inr rfl
      · cases hs
    · cases hs
  | handler outcome => exact h.runHandler hok hs
  | enter state =>
    obtain rfl := Option.some.inj hs
    exact h.enter hok
  | setVersion version | expireSegment xid | rxDisable | rxEnable =>
    obtain rfl := Option.some.inj hs
    exact h.of_same rfl rfl rfl rfl fun _ => id
  | openWith state | establish | tls state | close =>
    dsimp only at hs
    split at hs
    · obtain rfl := Option.some.inj hs
      exact h.of_same rfl rfl rfl rfl fun _ => id
    · cases hs
  | closing =>
    dsimp only at hs
    unfold runClose at hs
    split at hs
    · cases hs
    all_goals
      obtain rfl := Option.some.inj hs
      exact h.of_same rfl rfl rfl rfl fun _ => id

theorem Watched.new (rxqueueMaxSize : QueueId → Nat) : Watched (new rxqueueMaxSize : RxConn α) := by
  intro hest
  cases hest

theorem Watched.noneStranded (h : Watched s) : NoneStranded s := by
  intro hest hrecv hhandler
  by_cases hwakeup : s.wakeup = true
  · exact .inr hwakeup
  refine .inl fun q => by_contra fun hq => ?_
  rcases h hest with hsignals | hcovered
  · rw [hrecv] at hsignals
    cases hsignals
  · rcases hcovered q hq with hw | hcov
    · exact hwakeup hw
    · rw [hhandler] at hcov
      cases hcov

/-- **No receive wakeup is lost** in a run whose steps all meet the condition. -/
theorem no_lost_rx_wakeup {rxqueueMaxSize : QueueId → Nat} {t : RxConn α} {as : List (Act α)}
    (hok : Runs.Meets step Waking (RxConn.new rxqueueMaxSize) as)
    (h : Runs.run step (RxConn.new rxqueueMaxSize) as = some t) : NoneStranded t :=
  (Runs.invariant_of_meets (fun _ _ _ hI ha hs => Watched.step hI ha hs) (.new rxqueueMaxSize) hok h).noneStranded

section Decidable

variable [DecidableEq α]

instance (s : RxConn α) : Decidable (Covered s) :=
  decidable_of_iff (∀ q ∈ QueueId.all, (s.rxqueues q).queue ≠ [] → s.wakeup = true ∨ s.handler.covers q = true)
    ⟨fun h q => h q (QueueId.mem_all q), fun h q _ => h q⟩

instance (s : RxConn α) : Decidable (∀ q, (s.rxqueues q).queue = []) :=
  decidable_of_iff (∀ q ∈ QueueId.all, (s.rxqueues q).queue = [])
    ⟨fun h q => h q (QueueId.mem_all q), fun h q _ => h q⟩

instance (s : RxConn α) : ∀ a, Decidable (Waking s a)
  | .enter _ => inferInstanceAs (Decidable (_ → _))
  | .recv => inferInstanceAs (Decidable (_ → _))
  | .handler _ => inferInstanceAs (Decidable (_ → _))
  | .handleRecv _ | .handleWakeup | .setVersion _ | .expireSegment _ | .openWith _ | .establish | .tls _ | .close
  | .closing | .rxDisable | .rxEnable => inferInstanceAs (Decidable True)

end Decidable

/-- A BARRIER_REPLY of version 1.3. -/
def barrierReply : Received UInt8 := ⟨[4, 21, 0, 8, 0, 0, 0, 7], ⟨4, 21, 7, []⟩⟩

/-- A connection is opened; the peer's HELLO selects version 1.3. -/
def negotiated : List (Act UInt8) :=
  [.enter .connectPending, .openWith .tcpConnecting, .establish, .enter .negotiating, .setVersion 4,
    .enter .negotiating2]

/-- A message received in `STATE_ESTABLISHED` is handed to the application. -/
def handedRun : List (Act UInt8) :=
  negotiated ++ [Act.enter .established, .handleRecv barrierReply] ++ List.replicate 6 Act.recv ++ [Act.handleWakeup] ++
    List.replicate 27 (Act.handler .returns)

theorem no_lost_rx_wakeup_handed : ∃ t, Runs.run step (RxConn.new fun _ => 128) handedRun = some t ∧
    t.handed = [barrierReply.frame] ∧ t.handler = .idle ∧ NoneStranded t := by
  obtain ⟨t, hrun, hhanded, hidle⟩ : ∃ t ∈ Runs.run step (RxConn.new fun _ => 128) handedRun,
      t.handed = [barrierReply.frame] ∧ t.handler = .idle := by decide +kernel
  exact ⟨t, hrun, hhanded, hidle, no_lost_rx_wakeup (by decide +kernel) hrun⟩

/-- A message received in `STATE_NEGOTIATING2` waits for `STATE_ESTABLISHED`. -/
def waitingRun : List (Act UInt8) :=
  negotiated ++ [Act.handleRecv barrierReply] ++ List.replicate 4 Act.recv ++ [Act.enter .established]

/-- And goes on waiting then. -/
theorem lost_rx_wakeup : ∃ t, Runs.run step (RxConn.new fun _ => 128) waitingRun = some t ∧
    t.state = .established ∧ t.recv = .idle ∧ t.handler = .idle ∧ t.closing = .idle ∧
    (t.rxqueues .flow).queue = [barrierReply] ∧ t.wakeup = false ∧ ¬ NoneStranded t := by
  refine ⟨_, rfl, rfl, rfl, rfl, rfl, rfl, rfl, fun h => ?_⟩
  rcases h rfl rfl rfl with hempty | hwakeup
  · cases hempty .flow
  · cases hwakeup

end RxConn
end RoflCommon
