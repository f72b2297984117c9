/-
Whom a silent peer keeps waiting: in each of the states in which the object
waits for its peer a timer ends the wait.

Two functions break this. `error_rcvd` drops `TIMER_ID_WAIT_FOR_HELLO` before
it looks at the state and at the type of the error. Where the error ends the
negotiation no timer is needed any more; any other error leaves the object in
`STATE_NEGOTIATING` with nothing to wake it. `handle_rx_messages` drops
`TIMER_ID_NEED_LIFE_CHECK` and arms it again at its end, which an exception of
the application other than `std::runtime_error` passes by (`guarded_iff`).
-/
import RoflCommon.Crofconn.Events

namespace RoflCommon
namespace Conn

open Crofconn

/-- Every waiting state has its timer. -/
structure Guarded (c : Conn) : Prop where
  hello : c.fsm.state = .negotiating → c.fsm.flagHelloRcvd = false → c.armed .waitForHello = true
  features : c.fsm.state = .negotiating2 → c.armed .waitForFeatures = true
  lifeCheck : c.fsm.state = .established → c.rxRunning = false →
    c.armed .needLifeCheck = true ∨ c.armed .waitForEcho = true

/-- An error received in `STATE_NEGOTIATING` while the HELLO of the peer is
still missing is one that ends the negotiation. -/
def NoStrayError (c : Conn) (e : Event) : Prop :=
  ∀ version xid errType, e = .recv (.error version xid errType) → c.fsm.state = .negotiating →
    c.fsm.flagHelloRcvd = false → version ≠ Openflow.OFP_VERSION_UNKNOWN →
    errType = Openflow13.OFPET_HELLO_FAILED

/-- What keeps the waits guarded: no error of that kind, and no exception that
leaves an established connection without a life check. -/
structure KeepsGuard (c : Conn) (e : Event) : Prop where
  error : NoStrayError c e
  escape : e = .rxEscape → c.fsm.state = .established → c.armed .needLifeCheck = true ∨ c.armed .waitForEcho = true

/-! ## The state machine arms what it needs -/

/-- In a state without a wait there is nothing to guard. -/
theorem Guarded.of_state {c : Conn} (h₁ : c.fsm.state ≠ .negotiating) (h₂ : c.fsm.state ≠ .negotiating2)
    (h₃ : c.fsm.state ≠ .established) : Guarded c :=
  ⟨fun h => absurd h h₁, fun h => absurd h h₂, fun h => absurd h h₃⟩

/-- What keeps the state, the flag and the timers of the waits keeps them
guarded. -/
theorem Guarded.of_same {c d : Conn} (h : Guarded c) (hstate : d.fsm.state = c.fsm.state)
    (hrcvd : d.fsm.flagHelloRcvd = c.fsm.flagHelloRcvd)
    (hhello : d.armed .waitForHello = c.armed .waitForHello)
    (hfeatures : d.armed .waitForFeatures = c.armed .waitForFeatures)
    (hlife : d.rxRunning = false → c.rxRunning = false ∧
      (c.armed .needLifeCheck = true ∨ c.armed .waitForEcho = true →
        d.armed .needLifeCheck = true ∨ d.armed .waitForEcho = true)) : Guarded d := by
  refine ⟨fun h₁ h₂ => ?_, fun h₁ => ?_, fun h₁ h₂ => ?_⟩
  · rw [hstate] at h₁
    rw [hrcvd] at h₂
    rw [hhello]
    exact h.hello h₁ h₂
  · rw [hstate] at h₁
    rw [hfeatures]
    exact h.features h₁
  · rw [hstate] at h₁
    obtain ⟨hidle, hkeep⟩ := hlife h₂
    exact hkeep (h.lifeCheck h₁ hidle)

theorem Guarded.enter_other {c : Conn} {s : ConnState} (hs : c.fsm.state ≠ s) :
    Guarded (c.perform (runFiniteStateMachine s)) := by
  rw [Conn.enter_other hs]
  have hstate : (c.perform (execAll (.setState s :: caseOps s))).fsm.state = settled s := by
    rw [fsm_perform, execAll_enter_state]
  -- three states have a wait, and each arms its timer on entry
  refine ⟨fun h₁ h₂ => ?_, fun h₁ => ?_, fun h₁ _ => ?_⟩
  · rw [hstate] at h₁
    obtain rfl : s = .negotiating := by cases s <;> first | rfl | cases h₁
    have hrcvd : c.fsm.flagHelloRcvd = false := by
      rw [fsm_perform, execAll_flagHelloRcvd] at h₂
      simpa [caseOps] using h₂
    simp only [caseOps, perform_execAll_cons, perform_execAll_nil]
    rw [show FsmOp.sendHello.exec = sendHelloMessage from rfl, armed_perform_sendHelloMessage,
      armed_perform_waitForHello (by simpa [FsmOp.exec, assign] using hrcvd), Function.update_self]
  · rw [hstate] at h₁
    obtain rfl : s = .negotiating2 := by cases s <;> first | rfl | cases h₁
    simp [caseOps, perform_execAll_cons, FsmOp.exec]
  · rw [hstate] at h₁
    obtain rfl : s = .established := by cases s <;> first | rfl | cases h₁
    left
    simp [caseOps, perform_execAll_cons, FsmOp.exec, act, addTimer]

theorem Guarded.enter {c : Conn} (h : Guarded c) (s : ConnState) :
    Guarded (c.perform (runFiniteStateMachine s)) := by
  by_cases hs : c.fsm.state = s
  · rwa [enter_self hs]
  · exact Guarded.enter_other hs

/-- Nothing is waited for once the negotiation has failed. -/
theorem Guarded.negotiationFailed (c : Conn) : Guarded (c.perform (runFiniteStateMachine .negotiationFailed)) := by
  by_cases hs : c.fsm.state = .negotiationFailed
  · rw [enter_self hs]
    exact Guarded.of_state (by simp [hs]) (by simp [hs]) (by simp [hs])
  · exact Guarded.enter_other hs

/-! ## The handlers -/

theorem Guarded.dropTimer {c : Conn} (h : Guarded c) {t : TimerId}
    (hhello : t = .waitForHello → c.fsm.state = .negotiating → c.fsm.flagHelloRcvd = true)
    (hfeatures : t = .waitForFeatures → c.fsm.state ≠ .negotiating2)
    (hlife : t = .needLifeCheck ∨ t = .waitForEcho → c.fsm.state ≠ .established ∨ c.rxRunning = true) :
    Guarded (c.dropTimer t) := by
  have hne : ∀ u, t ≠ u → (c.dropTimer t).armed u = c.armed u := fun u hu => Function.update_of_ne hu.symm _ _
  refine ⟨fun h₁ h₂ => ?_, fun h₁ => ?_, fun h₁ h₂ => ?_⟩
  · rw [hne _ fun ht => ?_]
    · exact h.hello h₁ h₂
    · have hrcvd := hhello ht h₁
      rw [show (c.dropTimer t).fsm = c.fsm from rfl, hrcvd] at h₂
      cases h₂
  · rw [hne _ fun ht => hfeatures ht h₁]
    exact h.features h₁
  · have hkeep : ∀ u, u = .needLifeCheck ∨ u = .waitForEcho → t ≠ u := by
      rintro u hu rfl
      rcases hlife hu with hl | hl
      · exact hl h₁
      · rw [show (c.dropTimer t).rxRunning = c.rxRunning from rfl, hl] at h₂
        cases h₂
    rw [hne _ (hkeep _ (.inl rfl)), hne _ (hkeep _ (.inr rfl))]
    exact h.lifeCheck h₁ h₂

theorem perform_errorRcvd (errType : UInt16) (c : Conn) : c.perform (errorRcvd errType) =
    if c.fsm.state = .negotiating ∧ errType = Openflow13.OFPET_HELLO_FAILED ∨
        c.fsm.state = .negotiating2 ∧ errType = Openflow13.OFPET_BAD_REQUEST then
      (c.dropTimer .waitForHello).perform (runFiniteStateMachine .negotiationFailed)
    else c.dropTimer .waitForHello := by
  unfold errorRcvd
  rw [perform_seq, perform_effect]
  have hfsm : (c.act (.dropTimer .waitForHello)).fsm = c.fsm := rfl
  unfold perform
  rw [hfsm]
  cases hs : c.fsm.state <;> simp only [hs, reduceCtorEq, true_and, false_and, or_false, false_or, if_false] <;>
    first | rfl | (split <;> rfl)

theorem Guarded.errorRcvd {c : Conn} (h : Guarded c) {errType : UInt16}
    (hok : c.fsm.state = .negotiating → c.fsm.flagHelloRcvd = false → errType = Openflow13.OFPET_HELLO_FAILED) :
    Guarded (c.perform (errorRcvd errType)) := by
  rw [perform_errorRcvd]
  split
  case isTrue => exact Guarded.negotiationFailed _
  case isFalse hno =>
    refine h.dropTimer (fun _ hs => ?_) (by simp) (by simp)
    by_contra hrcvd
    exact hno (.inl ⟨hs, hok hs (by simpa using hrcvd)⟩)

theorem perform_congr {f g : Code} {c : Conn} (h : f c.fsm = g c.fsm) : c.perform f = c.perform g := by
  unfold perform
  rw [h]

theorem Guarded.moveOn {c : Conn} (h : Guarded c) : Guarded (c.perform moveOn) := by
  have hrun : ∃ s, Crofconn.moveOn c.fsm = runFiniteStateMachine s c.fsm := by
    unfold Crofconn.moveOn
    split
    · exact ⟨_, rfl⟩
    · split
      · split <;> exact ⟨_, rfl⟩
      · exact ⟨_, rfl⟩
      · exact ⟨_, rfl⟩
  obtain ⟨s, hs⟩ := hrun
  rw [perform_congr hs]
  exact h.enter s

theorem Guarded.selectVersion {c : Conn} (h : Guarded c) (msg : CofmsgHello) :
    Guarded (c.perform (selectVersion msg)) := by
  by_cases hv : (c.fsm.versionbitmap.and c.fsm.versionbitmapPeer).getHighestOfpVersion = Openflow.OFP_VERSION_UNKNOWN
  · rw [perform_congr (g := helloIncompatible msg) (by simp only [Crofconn.selectVersion, hv, if_true])]
    unfold helloIncompatible
    rw [perform_seq]
    exact Guarded.negotiationFailed _
  · rw [perform_congr (g := seq (assign fun c =>
      { c with ofpVersion := (c.versionbitmap.and c.versionbitmapPeer).getHighestOfpVersion }) Crofconn.moveOn)
      (by simp [Crofconn.selectVersion, hv, seq, assign]), perform_seq]
    have hsame : Guarded (c.perform (assign fun c =>
        { c with ofpVersion := (c.versionbitmap.and c.versionbitmapPeer).getHighestOfpVersion })) :=
      ⟨h.hello, h.features, h.lifeCheck⟩
    exact hsame.moveOn

/-- The flag is set before the timer is dropped. -/
theorem Guarded.helloRcvd {c : Conn} (h : Guarded c) (msg : CofmsgHello) :
    Guarded (c.perform (helloRcvd msg)) := by
  unfold Crofconn.helloRcvd
  simp only [perform_seq]
  refine Guarded.selectVersion ?_ msg
  have hsent : Guarded (c.perform sendHelloMessage) := by
    have harmed := armed_perform_sendHelloMessage c
    refine h.of_same ?_ ?_ (by rw [harmed]) (by rw [harmed]) fun hidle => ⟨?_, by rw [harmed]; exact id⟩
    · rw [fsm_perform]
      exact FsmOp.exec_state .sendHello c.fsm
    · rw [fsm_perform]
      exact FsmOp.exec_flagHelloRcvd .sendHello c.fsm
    · simpa using hidle
  have hflag : Guarded ((c.perform sendHelloMessage).perform (assign fun c => { c with flagHelloRcvd := true })) :=
    ⟨fun _ h₂ => absurd h₂ (by simp), hsent.features, hsent.lifeCheck⟩
  have hdrop := hflag.dropTimer (t := .waitForHello) (fun _ _ => rfl) (by simp) (by simp)
  exact ⟨hdrop.hello, hdrop.features, hdrop.lifeCheck⟩

theorem Guarded.featuresReplyRcvd {c : Conn} (hs : c.fsm.state ≠ .established) :
    Guarded (c.perform featuresReplyRcvd) := by
  unfold Crofconn.featuresReplyRcvd
  rw [perform_seq]
  exact Guarded.enter_other hs

theorem Guarded.addTimer {c : Conn} (h : Guarded c) (t : TimerId) : Guarded (c.addTimer t) := by
  have hkeep : ∀ u, c.armed u = true → (c.addTimer t).armed u = true := by
    intro u hu
    by_cases hut : u = t
    · subst hut
      exact Function.update_self _ _ _
    · exact (Function.update_of_ne hut _ _).trans hu
  exact ⟨fun h₁ h₂ => hkeep _ (h.hello h₁ h₂), fun h₁ => hkeep _ (h.features h₁),
    fun h₁ h₂ => (h.lifeCheck h₁ h₂).imp (hkeep _) (hkeep _)⟩

/-- A life check that replaces another one. -/
theorem Guarded.exchange {c : Conn} (h : Guarded c) {t u : TimerId} (ht : t = .needLifeCheck ∨ t = .waitForEcho)
    (hu : u = .needLifeCheck ∨ u = .waitForEcho) : Guarded ((c.dropTimer t).addTimer u) := by
  have hadded : ((c.dropTimer t).addTimer u).armed u = true := Function.update_self _ _ _
  have hother : ∀ w, w ≠ t → c.armed w = true → ((c.dropTimer t).addTimer u).armed w = true := by
    intro w hw hc
    by_cases hwu : w = u
    · rwa [hwu]
    · exact (Function.update_of_ne hwu _ _).trans ((Function.update_of_ne hw _ _).trans hc)
  refine ⟨fun h₁ h₂ => hother _ ?_ (h.hello h₁ h₂), fun h₁ => hother _ ?_ (h.features h₁), fun _ _ => ?_⟩
  · rcases ht with rfl | rfl <;> simp
  · rcases ht with rfl | rfl <;> simp
  · rcases hu with rfl | rfl
    · exact .inl hadded
    · exact .inr hadded

theorem Guarded.handleRecv {c : Conn} (h : Guarded c) (m : Msg)
    (hok : NoStrayError c (.recv m)) : Guarded (c.handleRecv m) := by
  have hstore : Guarded (c.store m) := ⟨h.hello, h.features, h.lifeCheck⟩
  unfold Conn.handleRecv
  split
  case h_1 | h_2 | h_3 =>
    split
    case isTrue => exact h
    case isFalse hv =>
      split
      · exact h.helloRcvd _
      · exact h.errorRcvd fun hs hrcvd => hok _ _ _ rfl hs hrcvd hv
      · exact h
  case h_4 hs =>
    split
    case isTrue => exact h
    case isFalse =>
      split
      · exact Guarded.featuresReplyRcvd (by simp [hs])
      · exact h.errorRcvd fun hs' => by simp [hs] at hs'
      · exact h
      · exact hstore
  case h_5 =>
    split
    case isTrue => exact h
    case isFalse =>
      split
      · exact h
      · exact h.exchange (.inr rfl) (.inl rfl)
      · exact hstore
  case h_6 => exact h

theorem Guarded.helloExpired {c : Conn} (h : Guarded c) :
    Guarded ((c.dropTimer .waitForHello).perform Crofconn.helloExpired) := by
  have hrun : Crofconn.helloExpired c.fsm =
      if c.fsm.state = .established ∨ c.fsm.flagHelloRcvd = true then (c.fsm, [])
      else runFiniteStateMachine .negotiationFailed c.fsm := by
    unfold Crofconn.helloExpired
    cases hs : c.fsm.state <;> simp
  by_cases hquiet : c.fsm.state = .established ∨ c.fsm.flagHelloRcvd = true
  · rw [if_pos hquiet] at hrun
    rw [perform_congr (c := c.dropTimer .waitForHello) (f := Crofconn.helloExpired) (g := fun c => (c, [])) hrun]
    refine h.dropTimer (fun _ hs => ?_) (by simp) (by simp)
    rcases hquiet with hest | hrcvd
    · rw [hs] at hest
      cases hest
    · exact hrcvd
  · rw [if_neg hquiet] at hrun
    rw [perform_congr (c := c.dropTimer .waitForHello) (f := Crofconn.helloExpired)
      (g := runFiniteStateMachine .negotiationFailed) hrun]
    exact Guarded.negotiationFailed _

theorem Guarded.echoRequestExpired (c : Conn) : Guarded (c.perform Crofconn.echoRequestExpired) := by
  unfold Crofconn.echoRequestExpired
  rw [perform_seq]
  generalize c.perform (runFiniteStateMachine .closing) = d
  by_cases hs : d.fsm.state = .disconnected
  · rw [Conn.enter_self hs]
    exact Guarded.of_state (by simp [hs]) (by simp [hs]) (by simp [hs])
  · exact Guarded.enter_other hs

/-- The timer has gone when its handler is called. -/
theorem Guarded.handleTimeout {c : Conn} (h : Guarded c) (congested : Bool) (expired : UInt32 → Bool) (t : TimerId) :
    Guarded ((c.dropTimer t).handleTimeout congested expired t) := by
  cases t with
  | needLifeCheck =>
    unfold Conn.handleTimeout sendEchoRequest
    simp only
    split
    · exact h.exchange (.inl rfl) (.inl rfl)
    · exact h.exchange (.inl rfl) (.inr rfl)
  | waitForHello => exact h.helloExpired
  | waitForEcho => exact Guarded.echoRequestExpired _
  | waitForFeatures => exact Guarded.negotiationFailed _
  | pendingRequests => exact h.of_same rfl rfl rfl rfl fun hidle => ⟨hidle, id⟩
  | pendingSegments => exact h.of_same rfl rfl rfl rfl fun hidle => ⟨hidle, id⟩

/-! ## Runs -/

theorem Guarded.attempt_openWith {c : Conn} (h : Guarded c) {pending : ConnState} (rofsock : Effect)
    (hpending : pending = .connectPending ∨ pending = .acceptPending) (versionbitmap : Versionbitmap)
    (mode : Mode) : Guarded (c.attempt (openWith pending rofsock versionbitmap mode)) := by
  unfold attempt
  split
  case h_1 => exact h
  case h_2 r hr =>
    have hs : (c.after r).fsm.state = pending := by
      rw [show (c.after r).fsm = r.1 from foldl_act_fsm _ _]
      exact openWith_state (by rcases hpending with rfl | rfl <;> rfl) hr
    rcases hpending with rfl | rfl <;> exact Guarded.of_state (by simp [hs]) (by simp [hs]) (by simp [hs])

theorem Guarded.step {c c' : Conn} {e : Event} (h : Guarded c) (hok : KeepsGuard c e)
    (hstep : c.step e = some c') : Guarded c' := by
  cases e with
  | tcpConnect own mode =>
    obtain rfl := Option.some.inj hstep
    exact h.attempt_openWith _ (.inl rfl) _ _
  | tcpAccept own mode =>
    obtain rfl := Option.some.inj hstep
    exact h.attempt_openWith _ (.inr rfl) _ _
  | close =>
    obtain rfl := Option.some.inj hstep
    exact h.enter _
  | notify n =>
    obtain rfl := Option.some.inj hstep
    exact h.enter _
  | recv m =>
    obtain rfl := Option.some.inj hstep
    exact h.handleRecv m hok.error
  | expire t congested expired =>
    obtain ⟨-, hstep⟩ := Option.ite_none_right_eq_some.mp hstep
    obtain rfl := Option.some.inj hstep
    exact h.handleTimeout congested expired t
  | request xid type first =>
    obtain rfl := Option.some.inj hstep
    exact h.of_same rfl rfl rfl rfl fun hidle => ⟨hidle, id⟩
  | segment xid =>
    obtain rfl := Option.some.inj hstep
    exact h.of_same rfl rfl rfl rfl fun hidle => ⟨hidle, id⟩
  | complete xid =>
    obtain rfl := Option.some.inj hstep
    exact h.of_same rfl rfl rfl rfl fun hidle => ⟨hidle, id⟩
  | rxMessages =>
    obtain ⟨-, hstep⟩ := Option.ite_none_left_eq_some.mp hstep
    obtain rfl := Option.some.inj hstep
    exact h.of_same rfl rfl rfl rfl fun hidle => by cases hidle
  | rxDone =>
    obtain ⟨-, hstep⟩ := Option.ite_none_right_eq_some.mp hstep
    obtain rfl := Option.some.inj hstep
    -- the life check is armed again before the thread counts as idle
    have hadded := h.addTimer .needLifeCheck
    exact ⟨hadded.hello, hadded.features, fun _ _ => .inl (by simp [Conn.addTimer])⟩
  | rxLeave =>
    obtain ⟨⟨-, hs⟩, hstep⟩ := Option.ite_none_right_eq_some.mp hstep
    obtain rfl := Option.some.inj hstep
    exact ⟨h.hello, h.features, fun h₁ _ => absurd h₁ hs⟩
  | rxEscape =>
    obtain ⟨-, hstep⟩ := Option.ite_none_right_eq_some.mp hstep
    obtain rfl := Option.some.inj hstep
    exact ⟨h.hello, h.features, fun h₁ _ => hok.escape rfl h₁⟩

end Conn
end RoflCommon
