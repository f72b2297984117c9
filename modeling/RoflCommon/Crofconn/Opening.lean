/-
The opening of one TCP connection, by several threads.

One TCP connection from `STATE_CONNECT_PENDING` or `STATE_ACCEPT_PENDING` on.
The thread that called `tcp_connect` or `tcp_accept` calls
`handle_tcp_connected` or one of its siblings, once; the RX thread of the
socket calls `handle_recv` for any messages of the peer; and other threads
may end the connection at any time. Every access to a variable another thread
uses is a step of its own: the test in `run_finite_state_machine` comes before
the lock is taken, and the callbacks after it is released.

(On a reconnect the RX thread opens the connection itself; nobody overtakes.)

Only what bears on the state machine is kept of `handle_recv`: it is over at
once where it stores or drops a message or answers an ECHO. The variables
`entered` and `log` are not the class's: they record the states entered and
the effects.
-/
import RoflCommon.Crofconn.Cleanup

namespace RoflCommon
namespace Opening

open Crofconn

/-- The opening thread, the RX thread, and the others. -/
inductive Thread
  | opener
  | rx
  | other (n : Nat)
deriving DecidableEq, Repr

/-- Where a thread is: in `handle_recv` and the handlers it calls, in
`run_finite_state_machine`, or nowhere near. -/
inductive Pc
  | idle
  | handleRecv (m : Msg)
  -- `hello_rcvd`
  | sendHello (msg : CofmsgHello)
  | setHelloRcvd (msg : CofmsgHello)
  | dropTimer (msg : CofmsgHello)
  | peerVersions (msg : CofmsgHello)
  | selectVersion (msg : CofmsgHello)
  | helloIncompatible (msg : CofmsgHello)
  | moveOn
  -- `error_rcvd`
  | errorRcvd (errType : UInt16)
  | errorTest (errType : UInt16)
  | featuresReplyRcvd
  -- `run_finite_state_machine`: before its test, before the lock, under the
  -- lock, and after it
  | enter (s : ConnState)
  | lock (s : ConnState)
  | inside (ops : List FsmOp)
  | calls (ops : List FsmOp)
deriving DecidableEq, Repr

structure St where
  conn : Crofconn
  tlock : Option Thread
  pc : Thread → Pc
  /-- The opening thread has called its handler. -/
  notified : Bool
  entered : List ConnState
  log : List Effect

namespace St

/-- The call of `tcp_connect` or `tcp_accept` has entered its pending state. -/
def start (c : Crofconn) : St := ⟨c, none, fun _ => .idle, false, [], []⟩

end St

/-- The `switch` of `handle_recv`. -/
def dispatch (c : Crofconn) (m : Msg) : Pc :=
  match c.state with
  | .connectPending | .acceptPending | .negotiating =>
    if m.version = Openflow.OFP_VERSION_UNKNOWN then .idle
    else match m with
      | .hello msg => .sendHello msg
      | .error _ _ errType => .errorRcvd errType
      | _ => .idle
  | .negotiating2 =>
    if m.version ≠ c.ofpVersion then .idle
    else match m with
      | .featuresReply _ _ => .featuresReplyRcvd
      | .error _ _ errType => .errorRcvd errType
      | _ => .idle
  | _ => .idle

/-- The state `hello_rcvd` asks for. -/
def moveOnTo (c : Crofconn) : ConnState :=
  if c.ofpVersion = Openflow.OFP_VERSION_UNKNOWN then .disconnected
  else match c.mode with
    | .controller => if c.ofpVersion ≥ Openflow13.OFP_VERSION then .negotiating2 else .established
    | .datapath => .established
    | .unknown => .closing

def skip : Code := fun c => (c, [])

theorem dispatch_cases (c : Crofconn) (m : Msg) : dispatch c m = .idle ∨ (∃ msg, dispatch c m = .sendHello msg) ∨
    (∃ errType, dispatch c m = .errorRcvd errType) ∨ dispatch c m = .featuresReplyRcvd := by
  unfold dispatch
  cases c.state with
  | connectPending | acceptPending | negotiating | negotiating2 =>
    dsimp only
    split
    · simp
    · cases m <;> simp
  | _ => simp

/-- Where a thread goes from here, and the code it runs in this step. -/
def next (c : Crofconn) : Pc → Pc × Code
  | .idle => (.idle, skip)
  | .handleRecv m => (dispatch c m, skip)
  | .sendHello msg => (.setHelloRcvd msg, sendHelloMessage)
  | .setHelloRcvd msg => (.dropTimer msg, assign fun c => { c with flagHelloRcvd := true })
  | .dropTimer msg => (.peerVersions msg, effect (.dropTimer .waitForHello))
  | .peerVersions msg => (.selectVersion msg,
      assign fun c => { c with versionbitmapPeer := Crofconn.peerVersions c.versionbitmapPeer msg })
  | .selectVersion msg =>
    let common := c.versionbitmap.and c.versionbitmapPeer
    if common.getHighestOfpVersion = Openflow.OFP_VERSION_UNKNOWN then (.helloIncompatible msg, skip)
    else (.moveOn, assign fun c => { c with ofpVersion := common.getHighestOfpVersion })
  | .helloIncompatible msg => (.enter .negotiationFailed,
      effect (.sendMessage (.helloFailedIncompatible msg.version msg.xid (msg.pack.take 64))))
  | .moveOn => (.enter (moveOnTo c), skip)
  | .errorRcvd errType => (.errorTest errType, effect (.dropTimer .waitForHello))
  | .errorTest errType =>
    if c.state = .negotiating ∧ errType = Openflow13.OFPET_HELLO_FAILED ∨
        c.state = .negotiating2 ∧ errType = Openflow13.OFPET_BAD_REQUEST then
      (.enter .negotiationFailed, skip)
    else (.idle, skip)
  | .featuresReplyRcvd => (.enter .established, effect (.dropTimer .waitForFeatures))
  | .enter s => (if c.state = s then .idle else .lock s, skip)
  | .lock s => (.inside (.setState s :: caseOps s), skip)
  | .inside [] => (.idle, skip)
  -- the callbacks have been collected in `calls`
  | .inside (.callback s :: ops) => (.calls (.callback s :: ops), skip)
  | .inside (op :: ops) => (.inside ops, op.exec)
  | .calls [] => (.idle, skip)
  | .calls (op :: ops) => (.calls ops, op.exec)

/-- The state entered in a step. -/
def enters : Pc → List ConnState
  | .inside (.setState s :: _) => [s]
  | _ => []

/-- Who holds `tlock` after a step, if it can be made. -/
def tlockAfter (th : Thread) (tlock : Option Thread) : Pc → Option (Option Thread)
  | .idle => none
  | .lock _ => if tlock = none then some (some th) else none
  | .inside [] | .inside (.callback _ :: _) => some none
  | _ => some tlock

/-- A thread makes its next step. -/
def St.go (t : St) (th : Thread) (tlock : Option Thread) : St := { t with
  conn := ((next t.conn (t.pc th)).2 t.conn).1
  tlock := tlock
  pc := Function.update t.pc th (next t.conn (t.pc th)).1
  entered := t.entered ++ enters (t.pc th)
  log := t.log ++ ((next t.conn (t.pc th)).2 t.conn).2 }

@[simp] theorem St.go_pc (t : St) (th : Thread) (tlock : Option Thread) :
    (t.go th tlock).pc = Function.update t.pc th (next t.conn (t.pc th)).1 := rfl

def stepThread (t : St) (th : Thread) : Option St := (tlockAfter th t.tlock (t.pc th)).map (t.go th)

inductive Action
  | step (th : Thread)
  /-- `handle_tcp_connected`, `handle_tcp_accepted`, `handle_tls_connected` or
  `handle_tls_accepted`. -/
  | notify
  | recv (m : Msg)
  /-- Another thread ends the connection, or the RX thread calls `handle_closed`. -/
  | ask (th : Thread) (s : ConnState)
deriving DecidableEq, Repr

/-- Who may end the connection, and how. -/
def MayAsk (th : Thread) (s : ConnState) : Prop :=
  match th with
  | .opener => False
  | .rx => s = .disconnected
  | .other _ => Conn.Terminal s

instance : ∀ th s, Decidable (MayAsk th s)
  | .opener, _ => inferInstanceAs (Decidable False)
  | .rx, s => inferInstanceAs (Decidable (s = .disconnected))
  | .other _, s => inferInstanceAs (Decidable (Conn.Terminal s))

def step (t : St) : Action → Option St
  | .step th => stepThread t th
  | .notify =>
    if t.notified then none
    else some { t with notified := true, pc := Function.update t.pc .opener (.enter .negotiating) }
  | .recv m =>
    if t.pc .rx = .idle then some { t with pc := Function.update t.pc .rx (.handleRecv m) } else none
  | .ask th s =>
    if t.pc th = .idle ∧ MayAsk th s then some { t with pc := Function.update t.pc th (.enter s) } else none

theorem stepThread_eq {t t' : St} {th : Thread} (h : stepThread t th = some t') :
    t.pc th ≠ .idle ∧ ∃ tlock, t' = t.go th tlock := by
  obtain ⟨tlock, htlock, rfl⟩ := Option.map_eq_some_iff.mp h
  refine ⟨fun hidle => ?_, tlock, rfl⟩
  rw [hidle] at htlock
  cases htlock

/-! ## Alone, a thread runs the code of its handler -/

/-- `handle_recv`, as far as the state machine goes. -/
def recv (m : Msg) : Code := fun c =>
  match c.state with
  | .connectPending | .acceptPending | .negotiating =>
    if m.version = Openflow.OFP_VERSION_UNKNOWN then (c, [])
    else match m with
      | .hello msg => helloRcvd msg c
      | .error _ _ errType => errorRcvd errType c
      | _ => (c, [])
  | .negotiating2 =>
    if m.version ≠ c.ofpVersion then (c, [])
    else match m with
      | .featuresReply _ _ => featuresReplyRcvd c
      | .error _ _ errType => errorRcvd errType c
      | _ => (c, [])
  | _ => (c, [])

/-- On the state machine it acts as `handle_recv` does. -/
theorem fsm_handleRecv (conn : Conn) (m : Msg) : (conn.handleRecv m).fsm = (recv m conn.fsm).1 := by
  unfold Conn.handleRecv recv
  cases conn.fsm.state with
  | connectPending | acceptPending | negotiating =>
    dsimp only
    split
    · rfl
    · cases m <;> simp
  | negotiating2 =>
    dsimp only
    split
    · rfl
    · cases m <;> simp [Conn.fsm_store]
  | established =>
    dsimp only
    split
    · rfl
    · cases m <;> simp [Conn.fsm_store, echoReplyRcvd, seq, effect]
  | _ => rfl

/-- What a thread still has to do, as one piece of code. -/
def rest : Pc → Code
  | .idle => skip
  | .handleRecv m => recv m
  | .sendHello msg => helloRcvd msg
  | .setHelloRcvd msg =>
    seq (assign fun c => { c with flagHelloRcvd := true }) <|
    seq (effect (.dropTimer .waitForHello)) <|
    seq (assign fun c => { c with versionbitmapPeer := Crofconn.peerVersions c.versionbitmapPeer msg })
      (selectVersion msg)
  | .dropTimer msg =>
    seq (effect (.dropTimer .waitForHello)) <|
    seq (assign fun c => { c with versionbitmapPeer := Crofconn.peerVersions c.versionbitmapPeer msg })
      (selectVersion msg)
  | .peerVersions msg =>
    seq (assign fun c => { c with versionbitmapPeer := Crofconn.peerVersions c.versionbitmapPeer msg })
      (selectVersion msg)
  | .selectVersion msg => selectVersion msg
  | .helloIncompatible msg => helloIncompatible msg
  | .moveOn => moveOn
  | .errorRcvd errType => errorRcvd errType
  | .errorTest errType => fun c =>
    if c.state = .negotiating ∧ errType = Openflow13.OFPET_HELLO_FAILED ∨
        c.state = .negotiating2 ∧ errType = Openflow13.OFPET_BAD_REQUEST then
      runFiniteStateMachine .negotiationFailed c
    else (c, [])
  | .featuresReplyRcvd => featuresReplyRcvd
  | .enter s => runFiniteStateMachine s
  | .lock s => execAll (.setState s :: caseOps s)
  | .inside ops | .calls ops => execAll ops

theorem moveOn_eq (c : Crofconn) : moveOn c = runFiniteStateMachine (moveOnTo c) c := by
  unfold moveOn moveOnTo
  split
  · rfl
  · cases c.mode with
    | controller => dsimp only; split <;> rfl
    | datapath => rfl
    | unknown => rfl

theorem rest_dispatch (m : Msg) (c : Crofconn) : rest (dispatch c m) c = recv m c := by
  unfold dispatch recv
  cases c.state with
  | connectPending | acceptPending | negotiating | negotiating2 =>
    dsimp only
    split
    · rfl
    · cases m <;> rfl
  | _ => rfl

/-- A step of a thread does the first part of what it has to do. -/
theorem rest_next (c : Crofconn) (pc : Pc) : (rest (next c pc).1 ((next c pc).2 c).1).1 = (rest pc c).1 := by
  cases pc with
  | handleRecv m => exact congrArg _ (rest_dispatch m c)
  | selectVersion msg =>
    simp only [next, rest, selectVersion]
    split <;> simp only [skip, assign]
  | sendHello msg | setHelloRcvd msg | dropTimer msg | peerVersions msg =>
    simp only [next, rest, helloRcvd, seq, assign, effect]
  | helloIncompatible msg => simp only [next, rest, Crofconn.helloIncompatible, seq, effect]
  | featuresReplyRcvd => simp only [next, rest, Crofconn.featuresReplyRcvd, seq, effect]
  | moveOn => exact congrArg _ (moveOn_eq c).symm
  | errorRcvd errType =>
    simp only [next, rest, Crofconn.errorRcvd, seq, effect]
    obtain ⟨s, hs⟩ : ∃ s, c.state = s := ⟨_, rfl⟩
    simp only [hs]
    cases s <;> simp
  | errorTest errType =>
    by_cases hfails : c.state = .negotiating ∧ errType = Openflow13.OFPET_HELLO_FAILED ∨
        c.state = .negotiating2 ∧ errType = Openflow13.OFPET_BAD_REQUEST
    · simp only [next, rest, hfails, if_true, skip]
    · simp only [next, rest, hfails, if_false, skip]
  | enter s =>
    simp only [next, rest, skip]
    by_cases hs : c.state = s
    · rw [if_pos hs, runFiniteStateMachine_of_eq hs]
      rfl
    · rw [if_neg hs, runFiniteStateMachine_of_ne hs]
  | inside ops =>
    cases ops with
    | nil => rfl
    | cons op ops => cases op <;> rfl
  | calls ops => cases ops <;> rfl
  | _ => rfl

/-! ## Who enters what -/

/-- The states a thread asks for. -/
def Target : Thread → ConnState → Prop
  | .opener, s => s = .negotiating
  | .rx, s => s ≠ .negotiating
  | .other _, s => Conn.Terminal s

/-- Where a thread can be. -/
def Role (th : Thread) : Pc → Prop
  | .idle => True
  | .enter s | .lock s => Target th s
  | .inside ops => ∃ s, Target th s ∧ ops <:+ .setState s :: caseOps s
  | .calls ops => (∃ s, Target th s ∧ ops <:+ .setState s :: caseOps s) ∧ ∀ u, .setState u ∉ ops
  | _ => th = .rx

theorem setState_mem_caseOps {s u : ConnState} (h : .setState u ∈ caseOps s) :
    Conn.Terminal s ∧ (u = .closing ∨ u = .disconnected) := by
  cases s <;> simp [caseOps, closingOps, disconnectedOps, pendingOps] at h <;>
    first | exact ⟨by decide, h⟩ | exact ⟨by decide, .inr h⟩

theorem callback_mem_caseOps {s : ConnState} (h : .callback .established ∈ caseOps s) : s = .established := by
  cases s <;> simp [caseOps, closingOps, disconnectedOps, pendingOps] at h
  rfl

/-- The callbacks come last. -/
theorem setState_not_mem_of_callback {s u v : ConnState} {ops : List FsmOp}
    (h : .callback v :: ops <:+ .setState s :: caseOps s) : .setState u ∉ ops := by
  cases s <;>
    simp [caseOps, closingOps, disconnectedOps, pendingOps, List.suffix_cons_iff] at h
  case negotiationFailed => rcases h with ⟨-, rfl⟩ | ⟨-, rfl⟩ <;> simp
  all_goals simp [h.2]

theorem moveOnTo_ne (c : Crofconn) : moveOnTo c ≠ .negotiating := by
  unfold moveOnTo
  split
  · simp
  · split
    · split <;> simp
    · simp
    · simp

theorem role_next {th : Thread} {pc : Pc} (h : Role th pc) (c : Crofconn) : Role th (next c pc).1 := by
  have hrx : th = .rx → ∀ s, s ≠ .negotiating → Target th s := by
    rintro rfl s hs
    exact hs
  cases pc with
  | idle => trivial
  | handleRecv m =>
    obtain rfl : th = .rx := h
    simp only [next]
    rcases dispatch_cases c m with hd | ⟨msg, hd⟩ | ⟨errType, hd⟩ | hd <;> rw [hd]
    · trivial
    · rfl
    · rfl
    · rfl
  | selectVersion msg =>
    obtain rfl : th = .rx := h
    simp only [next]
    split <;> rfl
  | helloIncompatible msg | featuresReplyRcvd =>
    exact hrx h _ (by simp)
  | moveOn => exact hrx h _ (moveOnTo_ne c)
  | errorTest errType =>
    simp only [next]
    split
    · exact hrx h _ (by simp)
    · trivial
  | enter s =>
    simp only [next]
    split
    · trivial
    · exact h
  | lock s => exact ⟨s, h, List.suffix_refl _⟩
  | inside ops =>
    obtain ⟨s, hs, hops⟩ := h
    cases ops with
    | nil => trivial
    | cons op ops =>
      have htail : ops <:+ .setState s :: caseOps s := (List.suffix_cons op ops).trans hops
      cases op with
      | callback u =>
        refine ⟨⟨s, hs, hops⟩, fun v hv => setState_not_mem_of_callback hops (u := v) ?_⟩
        simpa using hv
      | _ => exact ⟨s, hs, htail⟩
  | calls ops =>
    obtain ⟨⟨s, hs, hops⟩, hno⟩ := h
    cases ops with
    | nil => trivial
    | cons op ops =>
      exact ⟨⟨s, hs, (List.suffix_cons op ops).trans hops⟩, fun u hu => hno u (List.mem_cons_of_mem _ hu)⟩
  | _ => exact h

/-- Every thread is where it can be. -/
def Roles (t : St) : Prop := ∀ th, Role th (t.pc th)

theorem roles_update {t : St} (h : Roles t) {th : Thread} {p : Pc} (hp : Role th p) (u : Thread) :
    Role u (Function.update t.pc th p u) := by
  by_cases hu : u = th
  · subst hu
    rwa [Function.update_self]
  · rw [Function.update_of_ne hu]
    exact h u

theorem MayAsk.target {th : Thread} {s : ConnState} (h : MayAsk th s) : Target th s := by
  cases th with
  | opener => exact h.elim
  | rx =>
    obtain rfl : s = .disconnected := h
    simp [Target]
  | other n => exact h

theorem roles_step {t t' : St} {a : Action} (h : Roles t) (hstep : step t a = some t') : Roles t' := by
  cases a with
  | step th =>
    obtain ⟨-, tlock, rfl⟩ := stepThread_eq hstep
    exact roles_update h (role_next (h th) t.conn)
  | notify =>
    obtain ⟨-, hstep⟩ := Option.ite_none_left_eq_some.mp hstep
    obtain rfl := Option.some.inj hstep
    exact roles_update h (p := .enter .negotiating) rfl
  | recv m =>
    obtain ⟨-, hstep⟩ := Option.ite_none_right_eq_some.mp hstep
    obtain rfl := Option.some.inj hstep
    exact roles_update h (p := .handleRecv m) rfl
  | ask th s =>
    obtain ⟨⟨-, hask⟩, hstep⟩ := Option.ite_none_right_eq_some.mp hstep
    obtain rfl := Option.some.inj hstep
    exact roles_update h (p := .enter s) hask.target

end Opening
end RoflCommon
