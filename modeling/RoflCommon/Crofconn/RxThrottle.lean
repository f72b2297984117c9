/-
Whether throttled reception can stick: with the connection in
`STATE_ESTABLISHED`, room in every queue and nobody at work or about to be,
reception is enabled and the descriptor is registered for reading.

So it is in the runs in which every step meets `Throttling`
(`throttle_never_sticks`). Two things have to hold on the way. The flag and
the registration are in step (`InStep`): `rx_disable` first sets the flag and
then drops the descriptor, and a whole `rx_enable` that comes between leaves
reception enabled with the descriptor dropped. And whenever reception is
disabled somebody is still to enable it (`Attended`): the thread of the
connection does at the end of a run of `handle_rx_messages`, but not on its
early returns.
-/
import RoflCommon.Crofconn.RxWakeup

namespace RoflCommon

variable {α : Type}

/-- The thread of the connection is still to test whether reception is
disabled, or to enable it. -/
def HandlerPc.reenables : HandlerPc α → Bool
  | .entry | .queue _ _ | .test _ _ | .item _ _ _ | .retrieve _ _ _ | .deliver _ _ _ _ | .queueEnd _ _ | .roundEnd _
  | .finish | .testDisabled | .rxEnable => true
  | .idle | .stop | .addReadFd => false

namespace RxConn

/-- The connection is established, on a socket that is established and not
being closed. -/
def Live (s : RxConn α) : Prop :=
  s.state = .established ∧ s.sockState.established = true ∧ s.closing = .idle

/-- Some queue has no room left. -/
def Full (s : RxConn α) : Prop := ∃ q, (s.rxqueues q).capacity = 0

/-- With room in every queue and nobody at work, reception is on. -/
def Unthrottled (s : RxConn α) : Prop :=
  Live s → ¬ Full s → s.recv = .idle → s.handler = .idle → s.wakeup = false →
    s.rxDisabled = false ∧ s.readFd = true

/-- The flag and the registration of the descriptor. -/
def InStep (s : RxConn α) : Prop := s.readFd = true ∨ s.rxDisabled = true ∨ s.handler = .addReadFd

/-- The thread of the connection will see to disabled reception, if there is
room at all. -/
def Attended (s : RxConn α) : Prop := s.wakeup = true ∨ s.handler.reenables = true ∨ Full s

/-- Reception is enabled, or going to be. -/
structure Sound (s : RxConn α) : Prop where
  inStep : InStep s
  attended : s.rxDisabled = true → s.recv.signals = true ∨ Attended s

/-- Where the connection becomes established, reception is sound. -/
def Starts (s s' : RxConn α) : Prop := ¬ Live s → Live s' → Sound s'

/-- The exception leaves `handle_rx_messages`. -/
def escapes : HandlerPc α → Outcome → Bool
  | .deliver _ _ _ _, .throws e | .deliver _ _ _ _, .fails e => e == .other
  | _, _ => false

/-- What keeps reception from staying disabled. -/
def Throttling (s : RxConn α) : Act α → Prop
  | .recv => (s.recv = .dropReadFd → Live s → s.rxDisabled = true ∨ s.handler = .addReadFd) ∧
      (s.recv = .testWorking → s.rxThreadWorking = true → Live s → s.rxDisabled = true → Attended s)
  | .handler outcome => escapes s.handler outcome = true → Live s → s.rxDisabled = true →
      s.recv.signals = true ∨ s.wakeup = true ∨ Full s
  | .enter state => Starts s (s.enter state)
  | .establish => Starts s s.establish
  | .tls sockState => Starts s { s with sockState := sockState }
  | .closing => s.closing = .reset → Starts s { s with rxDisabled := false, closing := .idle }
  | .rxDisable => Live s → s.recv.signals = true ∨ Attended s
  | _ => True

variable {s s' : RxConn α}

theorem Sound.unthrottled (h : Live s → Sound s) : Unthrottled s := by
  intro hlive hroom hrecv hhandler hwakeup
  have hsound := h hlive
  have henabled : s.rxDisabled = false := by
    rw [← Bool.not_eq_true]
    intro hdisabled
    rcases hsound.attended hdisabled with hsignals | hwoken | hreenables | hfull
    · rw [hrecv] at hsignals
      cases hsignals
    · rw [hwakeup] at hwoken
      cases hwoken
    · rw [hhandler] at hreenables
      cases hreenables
    · exact hroom hfull
  refine ⟨henabled, ?_⟩
  rcases hsound.inStep with hfd | hdisabled | hadd
  · exact hfd
  · rw [henabled] at hdisabled
    cases hdisabled
  · rw [hhandler] at hadd
    cases hadd

/-! ## The RX thread -/

/-- The RX thread moves on within `handle_recv`, with the flag and the
registration as they are. -/
theorem Sound.signals (h : Sound s) (hfd : s'.readFd = s.readFd) (hdisabled : s'.rxDisabled = s.rxDisabled)
    (hhandler : s'.handler = s.handler) (hsignals : s'.recv.signals = true) : Sound s' where
  inStep := by
    unfold InStep
    rw [hfd, hdisabled, hhandler]
    exact h.inStep
  attended _ := .inl hsignals

/-- The RX thread has done nothing yet that has to be attended to. -/
theorem Sound.recv_idle (h : Sound s) (hsignals : s.recv.signals = false) (pc : RecvPc α) :
    Sound { s with recv := pc } where
  inStep := h.inStep
  attended hdisabled := .inr ((h.attended hdisabled).resolve_left (by rw [hsignals]; nofun))

theorem Sound.runRecv (h : Live s → Sound s) (hok : Throttling s .recv) (hs : s.runRecv = some s') :
    Live s' → Sound s' := by
  unfold RxConn.runRecv at hs
  split at hs
  next => cases hs
  next m hpc =>
    obtain rfl := Option.some.inj hs
    exact fun hlive => (h hlive).recv_idle (by rw [hpc]; rfl) _
  next m hpc =>
    split at hs
    · obtain rfl := Option.some.inj hs
      exact fun hlive => (h hlive).recv_idle (by rw [hpc]; rfl) _
    · obtain ⟨queue, -, rfl⟩ := Option.map_eq_some_iff.mp hs
      exact fun hlive => (h hlive).signals rfl rfl rfl rfl
  next q hpc =>
    obtain rfl := Option.some.inj hs
    refine fun hlive => (h hlive).signals rfl rfl rfl ?_
    dsimp only
    split <;> rfl
  next hpc =>
    obtain rfl := Option.some.inj hs
    exact fun _ => ⟨.inr (.inl rfl), fun _ => .inl rfl⟩
  next hpc =>
    obtain rfl := Option.some.inj hs
    exact fun hlive => ⟨.inr (hok.1 hpc hlive), fun _ => .inl rfl⟩
  next hpc =>
    obtain rfl := Option.some.inj hs
    refine fun hlive => (h hlive).signals rfl rfl rfl ?_
    simp [show s.state = .established from hlive.1, RecvPc.signals]
  next hpc =>
    obtain rfl := Option.some.inj hs
    intro hlive
    by_cases hworking : s.rxThreadWorking = true
    · exact ⟨(h hlive).inStep, fun hdisabled => .inr (hok.2 hpc hworking hlive hdisabled)⟩
    · exact (h hlive).signals rfl rfl rfl (by simp [hworking, RecvPc.signals])
  next hpc =>
    obtain rfl := Option.some.inj hs
    exact fun hlive => ⟨(h hlive).inStep, fun _ => .inr (.inl rfl)⟩

/-! ## The thread of the connection -/

theorem Sound.registered (h : Sound s) (hhandler : s.handler ≠ .addReadFd) :
    s.readFd = true ∨ s.rxDisabled = true :=
  h.inStep.imp_right fun hd => hd.resolve_right hhandler

/-- The thread of the connection moves on, still to make its test. -/
theorem Sound.reenabling (h : Sound s) (hhandler : s.handler ≠ .addReadFd) (hfd : s'.readFd = s.readFd)
    (hdisabled : s'.rxDisabled = s.rxDisabled) (hreenables : s'.handler.reenables = true) : Sound s' where
  inStep := by
    unfold InStep
    rw [hfd, hdisabled]
    exact (h.registered hhandler).imp_right .inl
  attended _ := .inr (.inr (.inl hreenables))

theorem reenables_nextQueue (again : Bool) (q : QueueId) : (nextQueue again q : HandlerPc α).reenables = true := by
  cases q <;> rfl

theorem reenables_nextRound (again : Bool) : (nextRound again : HandlerPc α).reenables = true := by
  cases again <;> rfl

theorem reenables_nextItem (again : Bool) (q : QueueId) (n : Nat) :
    (nextItem again q n : HandlerPc α).reenables = true := by
  unfold nextItem
  split <;> rfl

theorem Sound.deliver {again : Bool} {q : QueueId} {n : Nat} {m : Received α} {outcome : Outcome}
    (h : Live s → Sound s) (hpc : s.handler = .deliver again q n m) (hok : Throttling s (.handler outcome)) :
    Live (s.runDeliver again q n m outcome) → Sound (s.runDeliver again q n m outcome) := by
  obtain ⟨segments, handed, heq⟩ := runDeliver_eq s again q n m outcome
  rw [heq]
  intro hlive
  have hsound := h hlive
  have hne : s.handler ≠ .addReadFd := by rw [hpc]; nofun
  by_cases hescapes : escapes s.handler outcome = true
  · refine ⟨(hsound.registered hne).imp_right .inl, fun hdisabled => ?_⟩
    exact (hok hescapes hlive hdisabled).imp_right fun h => h.imp_right .inr
  · refine hsound.reenabling hne rfl rfl ?_
    rw [hpc] at hescapes
    cases outcome with
    | returns => exact reenables_nextItem again q n
    | throws e | fails e =>
      cases e with
      | notFound => rfl
      | runtimeError => exact reenables_nextRound again
      | other => exact absurd rfl hescapes

theorem Sound.runHandler {outcome : Outcome} (h : Live s → Sound s) (hok : Throttling s (.handler outcome))
    (hs : s.runHandler outcome = some s') : Live s' → Sound s' := by
  unfold RxConn.runHandler at hs
  split at hs
  next => cases hs
  next hpc =>
    obtain rfl := Option.some.inj hs
    exact fun hlive => (h hlive).reenabling (by rw [hpc]; nofun) rfl rfl rfl
  next again q hpc =>
    obtain rfl := Option.some.inj hs
    refine fun hlive => (h hlive).reenabling (by rw [hpc]; nofun) rfl rfl ?_
    rw [if_pos (show s.state = .established from hlive.1)]
    rfl
  next again q hpc =>
    obtain rfl := Option.some.inj hs
    refine fun hlive => (h hlive).reenabling (by rw [hpc]; nofun) rfl rfl ?_
    dsimp only
    split
    · exact reenables_nextQueue again q
    · rfl
  next again q n hpc =>
    obtain rfl := Option.some.inj hs
    refine fun hlive => (h hlive).reenabling (by rw [hpc]; nofun) rfl rfl ?_
    rw [if_pos (show s.state = .established from hlive.1)]
    rfl
  next again q n hpc =>
    split at hs
    all_goals
      obtain rfl := Option.some.inj hs
      exact fun hlive => (h hlive).reenabling (by rw [hpc]; nofun) rfl rfl rfl
  next again q n m hpc =>
    obtain rfl := Option.some.inj hs
    exact Sound.deliver h hpc hok
  next again q hpc =>
    obtain rfl := Option.some.inj hs
    exact fun hlive => (h hlive).reenabling (by rw [hpc]; nofun) rfl rfl (reenables_nextQueue again q)
  next again hpc =>
    obtain rfl := Option.some.inj hs
    refine fun hlive => (h hlive).reenabling (by rw [hpc]; nofun) rfl rfl ?_
    rw [if_pos (show s.state = .established from hlive.1)]
    exact reenables_nextRound again
  next hpc =>
    -- the early return: who attends to reception is not this thread
    obtain rfl := Option.some.inj hs
    intro hlive
    have hsound := h hlive
    refine ⟨(hsound.registered (by rw [hpc]; nofun)).imp_right .inl, fun hdisabled => ?_⟩
    refine (hsound.attended hdisabled).imp_right fun hatt => hatt.imp_right fun hrest => .inr (hrest.resolve_left ?_)
    rw [hpc]
    nofun
  next hpc =>
    obtain rfl := Option.some.inj hs
    exact fun hlive => (h hlive).reenabling (by rw [hpc]; nofun) rfl rfl rfl
  next hpc =>
    obtain rfl := Option.some.inj hs
    intro hlive
    have hsound := h hlive
    by_cases hdisabled : s.rxDisabled = true
    · exact hsound.reenabling (by rw [hpc]; nofun) rfl rfl (by simp [hdisabled, HandlerPc.reenables])
    · exact ⟨(hsound.registered (by rw [hpc]; nofun)).imp_right .inl, fun hd => absurd hd hdisabled⟩
  next hpc =>
    obtain rfl := Option.some.inj hs
    exact fun _ => ⟨.inr (.inr rfl), nofun⟩
  next hpc =>
    obtain rfl := Option.some.inj hs
    intro hlive
    refine ⟨.inl (by simp [show s.sockState.established = true from hlive.2.1]), fun hdisabled => ?_⟩
    refine ((h hlive).attended hdisabled).imp_right fun hatt => hatt.imp_right fun hrest => .inr (hrest.resolve_left ?_)
    rw [hpc]
    nofun

/-! ## Runs -/

/-- Where the connection becomes established the condition takes over. -/
theorem Sound.starts (h : Live s → Sound s) (hstarts : Starts s s') (hkeep : Live s → Sound s → Sound s') :
    Live s' → Sound s' := by
  intro hlive'
  by_cases hlive : Live s
  · exact hkeep hlive (h hlive)
  · exact hstarts hlive hlive'

/-- What the state machine does is of no concern to reception. -/
theorem enter_keeps (s : RxConn α) (state : ConnState) : (s.enter state).readFd = s.readFd ∧
    (s.enter state).rxDisabled = s.rxDisabled ∧ (s.enter state).handler = s.handler ∧
    (s.enter state).recv = s.recv ∧ (s.enter state).wakeup = s.wakeup ∧
    (s.enter state).rxqueues = s.rxqueues := by
  unfold RxConn.enter
  split
  · exact ⟨rfl, rfl, rfl, rfl, rfl, rfl⟩
  · cases state <;> exact ⟨rfl, rfl, rfl, rfl, rfl, rfl⟩

/-- A step that concerns neither reception nor the two threads. -/
theorem Sound.of_same (h : Sound s) (hfd : s'.readFd = s.readFd) (hdisabled : s'.rxDisabled = s.rxDisabled)
    (hhandler : s'.handler = s.handler) (hrecv : s'.recv = s.recv) (hwakeup : s'.wakeup = s.wakeup)
    (hqueues : s'.rxqueues = s.rxqueues) : Sound s' := by
  obtain ⟨h₁, h₂⟩ := h
  constructor
  · unfold InStep at h₁ ⊢
    rw [hfd, hdisabled, hhandler]
    exact h₁
  · unfold Attended Full at h₂ ⊢
    rw [hdisabled, hrecv, hwakeup, hhandler, hqueues]
    exact h₂

theorem Sound.runClose (h : Live s → Sound s) (hok : Throttling s .closing) (hs : s.runClose = some s') :
    Live s' → Sound s' := by
  unfold RxConn.runClose at hs
  split at hs
  · cases hs
  next hpc =>
    obtain rfl := Option.some.inj hs
    intro hlive
    cases hlive.2.2
  next hpc =>
    obtain rfl := Option.some.inj hs
    intro hlive
    cases hlive.2.2
  next hpc =>
    obtain rfl := Option.some.inj hs
    intro hlive
    cases hlive.2.1
  next hpc =>
    obtain rfl := Option.some.inj hs
    refine Sound.starts h (hok hpc) fun hlive => ?_
    have hidle := hlive.2.2
    rw [hpc] at hidle
    cases hidle

theorem Sound.step {a : Act α} (h : Live s → Sound s) (hok : Throttling s a) (hs : s.step a = some s') :
    Live s' → Sound s' := by
  unfold RxConn.step at hs
  cases a with
  | handleRecv m =>
    dsimp only at hs
    split at hs
    next hidle =>
      obtain rfl := Option.some.inj hs
      exact fun hlive => (h hlive).recv_idle (by rw [hidle]; rfl) _
    · cases hs
  | recv => exact Sound.runRecv h hok hs
  | handleWakeup =>
    dsimp only at hs
    split at hs
    next hidle =>
      split at hs
      · obtain rfl := Option.some.inj hs
        exact fun hlive => (h hlive).reenabling (by rw [hidle]; nofun) rfl rfl rfl
      · cases hs
    · cases hs
  | handler outcome => exact Sound.runHandler h hok hs
  | enter state =>
    obtain rfl := Option.some.inj hs
    obtain ⟨h₁, h₂, h₃, h₄, h₅, h₆⟩ := enter_keeps s state
    exact Sound.starts h hok fun _ hsound => hsound.of_same h₁ h₂ h₃ h₄ h₅ h₆
  | setVersion version | expireSegment xid =>
    obtain rfl := Option.some.inj hs
    exact fun hlive => (h hlive).of_same rfl rfl rfl rfl rfl rfl
  | openWith sockState =>
    dsimp only at hs
    split at hs
    next hopen =>
      obtain rfl := Option.some.inj hs
      intro hlive
      have := hlive.2.1.symm.trans (SockState.not_established_of_opening hopen.2)
      cases this
    · cases hs
  | establish =>
    dsimp only at hs
    split at hs
    next hopening =>
      obtain rfl := Option.some.inj hs
      refine Sound.starts h hok fun hlive => ?_
      have hest := hlive.2.1
      rcases hopening with hstate | hstate <;> rw [hstate] at hest <;> cases hest
    · cases hs
  | tls sockState =>
    dsimp only at hs
    split at hs
    · obtain rfl := Option.some.inj hs
      exact Sound.starts h hok fun _ hsound => hsound.of_same rfl rfl rfl rfl rfl rfl
    · cases hs
  | close =>
    dsimp only at hs
    split at hs
    · obtain rfl := Option.some.inj hs
      intro hlive
      cases hlive.2.2
    · cases hs
  | closing => exact Sound.runClose h hok hs
  | rxDisable =>
    obtain rfl := Option.some.inj hs
    exact fun hlive => ⟨.inr (.inl rfl), fun _ => hok hlive⟩
  | rxEnable =>
    obtain rfl := Option.some.inj hs
    refine fun hlive => ⟨.inl ?_, nofun⟩
    simp [show s.sockState.established = true from hlive.2.1]

/-- **Throttling never sticks** in a run whose steps all meet the condition. -/
theorem throttle_never_sticks {rxqueueMaxSize : QueueId → Nat} {t : RxConn α} {as : List (Act α)}
    (hok : Runs.Meets step Throttling (RxConn.new rxqueueMaxSize) as)
    (h : Runs.run step (RxConn.new rxqueueMaxSize) as = some t) : Unthrottled t := by
  refine Sound.unthrottled (Runs.invariant_of_meets (I := fun s => Live s → Sound s)
    (fun _ _ _ hI ha hs => Sound.step hI ha hs) (fun hlive => ?_) hok h)
  cases hlive.1

section Decidable

variable [DecidableEq α]

instance (s : RxConn α) : Decidable (Live s) := inferInstanceAs (Decidable (_ ∧ _))

instance (s : RxConn α) : Decidable (Full s) :=
  decidable_of_iff (∃ q ∈ QueueId.all, (s.rxqueues q).capacity = 0)
    ⟨fun ⟨q, _, hq⟩ => ⟨q, hq⟩, fun ⟨q, hq⟩ => ⟨q, QueueId.mem_all q, hq⟩⟩

instance (s : RxConn α) : Decidable (InStep s) := inferInstanceAs (Decidable (_ ∨ _))

instance (s : RxConn α) : Decidable (Attended s) := inferInstanceAs (Decidable (_ ∨ _))

instance (s : RxConn α) : Decidable (Sound s) :=
  decidable_of_iff (InStep s ∧ (s.rxDisabled = true → s.recv.signals = true ∨ Attended s))
    ⟨fun ⟨h₁, h₂⟩ => ⟨h₁, h₂⟩, fun h => ⟨h.inStep, h.attended⟩⟩

instance (s s' : RxConn α) : Decidable (Starts s s') := inferInstanceAs (Decidable (_ → _))

instance (s : RxConn α) : ∀ a, Decidable (Throttling s a)
  | .recv => inferInstanceAs (Decidable (_ ∧ _))
  | .handler _ => inferInstanceAs (Decidable (_ → _))
  | .enter state => inferInstanceAs (Decidable (Starts s (s.enter state)))
  | .establish => inferInstanceAs (Decidable (Starts s s.establish))
  | .tls sockState => inferInstanceAs (Decidable (Starts s { s with sockState := sockState }))
  | .closing => inferInstanceAs (Decidable (_ → Starts s { s with rxDisabled := false, closing := .idle }))
  | .rxDisable => inferInstanceAs (Decidable (_ → _))
  | .handleRecv _ | .handleWakeup | .setVersion _ | .expireSegment _ | .openWith _ | .close | .rxEnable =>
    inferInstanceAs (Decidable True)

end Decidable

/-- With room for one message, the first one disables reception; the thread
of the connection hands it over and enables reception again. -/
def throttledRun : List (Act UInt8) :=
  negotiated ++ [Act.enter .established, .handleRecv barrierReply] ++ List.replicate 8 Act.recv ++ [Act.handleWakeup] ++
    List.replicate 29 (Act.handler .returns)

theorem throttle_never_sticks_once : ∃ t, Runs.run step (RxConn.new fun _ => 1) throttledRun = some t ∧
    t.handed = [barrierReply.frame] ∧ t.handler = .idle ∧ t.readFd = true ∧ Unthrottled t := by
  obtain ⟨t, hrun, hhanded, hidle, hfd⟩ : ∃ t ∈ Runs.run step (RxConn.new fun _ => 1) throttledRun,
      t.handed = [barrierReply.frame] ∧ t.handler = .idle ∧ t.readFd = true := by decide +kernel
  exact ⟨t, hrun, hhanded, hidle, hfd, throttle_never_sticks (by decide +kernel) hrun⟩

/-- With room for two messages, the second one disables reception while the
thread of the connection is at work on the first. That thread hands over both
and enables reception before the RX thread has dropped the descriptor. -/
def stuckRun : List (Act UInt8) :=
  negotiated ++ [Act.enter .established, .handleRecv barrierReply] ++ List.replicate 6 Act.recv ++
    [Act.handleWakeup, .handler .returns, .handleRecv barrierReply] ++ List.replicate 4 Act.recv ++
    List.replicate 31 (Act.handler .returns) ++ List.replicate 4 Act.recv ++ [Act.handleWakeup] ++
    List.replicate 21 (Act.handler .returns)

theorem not_unthrottled (hlive : Live s) (hroom : ∀ q, (s.rxqueues q).capacity ≠ 0) (hrecv : s.recv = .idle)
    (hhandler : s.handler = .idle) (hwakeup : s.wakeup = false) (hfd : s.readFd = false) : ¬ Unthrottled s := by
  intro h
  have := hfd.symm.trans (h hlive (fun ⟨q, hq⟩ => hroom q hq) hrecv hhandler hwakeup).2
  cases this

theorem throttle_sticks : ∃ t, Runs.run step (RxConn.new fun _ => 2) stuckRun = some t ∧ Live t ∧
    (∀ q, (t.rxqueues q).queue = []) ∧ t.recv = .idle ∧ t.handler = .idle ∧ t.wakeup = false ∧
    t.readFd = false ∧ ¬ Unthrottled t := by
  obtain ⟨t, hrun, hlive, hqueues, hroom, hrecv, hhandler, hwakeup, hfd⟩ :
      ∃ t ∈ Runs.run step (RxConn.new fun _ => 2) stuckRun, Live t ∧ (∀ q, (t.rxqueues q).queue = []) ∧
        (∀ q ∈ QueueId.all, (t.rxqueues q).capacity ≠ 0) ∧ t.recv = .idle ∧ t.handler = .idle ∧
        t.wakeup = false ∧ t.readFd = false := by decide +kernel
  exact ⟨t, hrun, hlive, hqueues, hrecv, hhandler, hwakeup, hfd,
    not_unthrottled hlive (fun q => hroom q (QueueId.mem_all q)) hrecv hhandler hwakeup hfd⟩

end RxConn
end RoflCommon
