/-
`crofconn`: the state machine of one control connection, and the HELLO
exchange that drives it.

What a call does to the object is a new value of `Crofconn`; what it does
to everything around it (the socket, the timers, the peer, the application)
is a list of `Effect`s, in order. `run_finite_state_machine` is given as the
list of its elementary operations, with C++'s fall-through written as the
concatenation of lists.

Left out are logging, the flag `FLAG_DELETE_IN_PROGRESS` (a connection that
is being destroyed is not modelled) and the handlers for exceptions nothing
in the guarded code raises: `eHelloEperm` in `hello_rcvd`, `rofl::exception`
around `crofsock::send_message`, which reports a failure as its result.
-/
import RoflCommon.Openflow.Versionbitmap

namespace RoflCommon

/-- `crofconn_state_t`. -/
inductive ConnState
  | negotiationFailed | closing | disconnected
  | connectPending | connectRefused | connectFailed
  | acceptPending | acceptRefused | acceptFailed
  | negotiating | negotiating2 | established
deriving DecidableEq, Repr

/-- `crofconn_mode_t`. -/
inductive Mode
  | unknown | controller | datapath
deriving DecidableEq, Repr

/-- `crofconn_timer_t`, but for `TIMER_ID_RX_THREAD`, which nothing uses. -/
inductive TimerId
  | waitForHello | waitForFeatures | waitForEcho | needLifeCheck | pendingRequests | pendingSegments
deriving DecidableEq, Repr

/-- The messages the functions below send on their own account. -/
inductive Sent
  | hello (m : CofmsgHello)
  | featuresRequest (version : UInt8) (xid : UInt32)
  | helloFailedIncompatible (version : UInt8) (xid : UInt32) (data : List UInt8)
deriving DecidableEq, Repr

inductive Effect
  | rofsockConnect
  | rofsockAccept
  | rofsockClose
  | clearRxqueueCopies
  | clearPending
  | addTimer (t : TimerId)
  | dropTimer (t : TimerId)
  | dropTimers
  | sendMessage (m : Sent)
  | callback (s : ConnState)
deriving DecidableEq, Repr

structure Crofconn where
  versionbitmap : Versionbitmap
  versionbitmapPeer : Versionbitmap
  ofpVersion : UInt8
  mode : Mode
  state : ConnState
  flagHelloSent : Bool
  flagHelloRcvd : Bool
  xidHelloLast : UInt32
  xidFeaturesRequestLast : UInt32
deriving DecidableEq, Repr

namespace Crofconn

/-- The constructor; the two counters start at random numbers. -/
def new (xidHello xidFeaturesRequest : UInt32) : Crofconn where
  versionbitmap := .new
  versionbitmapPeer := .new
  ofpVersion := Openflow.OFP_VERSION_UNKNOWN
  mode := .unknown
  state := .disconnected
  flagHelloSent := false
  flagHelloRcvd := false
  xidHelloLast := xidHello
  xidFeaturesRequestLast := xidFeaturesRequest

/-- A piece of code: what becomes of the connection, and its effects. -/
abbrev Code := Crofconn → Crofconn × List Effect

/-- One piece of code after the other. -/
def seq (f g : Code) : Code := fun c => ((g (f c).1).1, (f c).2 ++ (g (f c).1).2)

def assign (f : Crofconn → Crofconn) : Code := fun c => (f c, [])

def effect (e : Effect) : Code := fun c => (c, [e])

/-! ## Sending -/

/-- The HELLO `send_hello_message` builds. -/
def helloMessage (c : Crofconn) : CofmsgHello :=
  ⟨c.versionbitmap.getHighestOfpVersion, c.xidHelloLast + 1, some c.versionbitmap⟩

def sendHelloMessage : Code := fun c =>
  if c.flagHelloSent then (c, [])
  else ({ c with flagHelloSent := true, xidHelloLast := c.xidHelloLast + 1 },
    [.sendMessage (.hello c.helloMessage)])

def sendFeaturesRequest : Code := fun c =>
  ({ c with xidFeaturesRequestLast := c.xidFeaturesRequestLast + 1 },
    [.addTimer .waitForFeatures, .sendMessage (.featuresRequest c.ofpVersion (c.xidFeaturesRequestLast + 1))])

/-! ## The state machine -/

/-- The elementary operations of `run_finite_state_machine`. -/
inductive FsmOp
  | setState (s : ConnState)
  | rofsockClose
  | dropTimers
  | clearPending
  | clearVersionbitmapPeer
  | setVersionUnknown
  | clearHelloFlags
  | clearRxqueues
  | waitForHello
  | sendHello
  | dropTimer (t : TimerId)
  | sendFeaturesRequest
  | addTimer (t : TimerId)
  | callback (s : ConnState)
deriving DecidableEq, Repr

def FsmOp.exec : FsmOp → Code
  | .setState s => assign fun c => { c with state := s }
  | .rofsockClose => effect .rofsockClose
  | .dropTimers => effect .dropTimers
  | .clearPending => effect .clearPending
  | .clearVersionbitmapPeer => assign fun c => { c with versionbitmapPeer := c.versionbitmapPeer.clear }
  | .setVersionUnknown => assign fun c => { c with ofpVersion := Openflow.OFP_VERSION_UNKNOWN }
  | .clearHelloFlags => assign fun c => { c with flagHelloSent := false, flagHelloRcvd := false }
  -- `for (auto rxqueue : rxqueues) rxqueue.clear()`: each `rxqueue` is a copy
  | .clearRxqueues => effect .clearRxqueueCopies
  | .waitForHello => fun c => if c.flagHelloRcvd then (c, []) else (c, [.addTimer .waitForHello])
  | .sendHello => sendHelloMessage
  | .dropTimer t => effect (.dropTimer t)
  | .sendFeaturesRequest => Crofconn.sendFeaturesRequest
  | .addTimer t => effect (.addTimer t)
  | .callback s => effect (.callback s)

/-- `case STATE_DISCONNECTED`. -/
def disconnectedOps : List FsmOp :=
  [.dropTimers, .clearPending, .clearVersionbitmapPeer, .setVersionUnknown, .clearHelloFlags]

/-- `case STATE_CLOSING`, falling through to `STATE_DISCONNECTED`. -/
def closingOps : List FsmOp := [.rofsockClose, .setState .disconnected] ++ disconnectedOps

/-- `case STATE_CONNECT_PENDING` and `case STATE_ACCEPT_PENDING`. -/
def pendingOps : List FsmOp := [.clearVersionbitmapPeer, .setVersionUnknown, .clearRxqueues]

/-- The `switch` of `run_finite_state_machine`; the callbacks collected in
`calls` come last. -/
def caseOps : ConnState → List FsmOp
  | .negotiationFailed =>
    [.setState .closing] ++ closingOps ++ [.callback .negotiationFailed, .callback .disconnected]
  | .closing => closingOps ++ [.callback .disconnected]
  | .disconnected => disconnectedOps ++ [.callback .disconnected]
  | .connectPending => pendingOps
  | .connectFailed => [.setState .disconnected, .callback .connectFailed]
  | .connectRefused => [.setState .disconnected, .callback .connectRefused]
  | .acceptPending => pendingOps
  | .acceptFailed => [.setState .disconnected, .callback .acceptFailed]
  | .acceptRefused => [.setState .disconnected, .callback .acceptRefused]
  | .negotiating => [.waitForHello, .sendHello]
  | .negotiating2 => [.dropTimer .waitForHello, .sendFeaturesRequest]
  | .established => [.dropTimer .waitForHello, .addTimer .needLifeCheck, .callback .established]

/-- One operation after the other. -/
def execAll : List FsmOp → Code
  | [] => fun c => (c, [])
  | op :: ops => seq op.exec (execAll ops)

def runFiniteStateMachine (newState : ConnState) : Code := fun c =>
  if c.state = newState then (c, [])
  else execAll (.setState newState :: caseOps newState) c

/-! ## Opening -/

/-- `set_versionbitmap`; without a version it throws `eRofConnInvalid`. -/
def setVersionbitmap (versionbitmap : Versionbitmap) (c : Crofconn) : Option Crofconn :=
  if versionbitmap.getHighestOfpVersion = Openflow.OFP_VERSION_UNKNOWN then none
  else some { c with versionbitmap := versionbitmap }

/-- What `tcp_connect` and `tls_connect` do, and `tcp_accept` and
`tls_accept`; they differ in the state entered and the call of `rofsock`. -/
def openWith (pending : ConnState) (rofsock : Effect) (versionbitmap : Versionbitmap) (mode : Mode)
    (c : Crofconn) : Option (Crofconn × List Effect) :=
  (c.setVersionbitmap versionbitmap).map
    (seq (assign fun c => { c with mode := mode }) (seq (runFiniteStateMachine pending) (effect rofsock)))

def tcpConnect : Versionbitmap → Mode → Crofconn → Option (Crofconn × List Effect) :=
  openWith .connectPending .rofsockConnect

def tcpAccept : Versionbitmap → Mode → Crofconn → Option (Crofconn × List Effect) :=
  openWith .acceptPending .rofsockAccept

/-! ## HELLO received -/

/-- `handle_recv` hands a HELLO to `hello_rcvd` in these states. -/
def HandlesHello (s : ConnState) : Prop :=
  s = .connectPending ∨ s = .acceptPending ∨ s = .negotiating

instance (s : ConnState) : Decidable (HandlesHello s) := inferInstanceAs (Decidable (_ ∨ _ ∨ _))

/-- Step 1 of `hello_rcvd`: what becomes of `versionbitmap_peer`. -/
def peerVersions (peer : Versionbitmap) (msg : CofmsgHello) : Versionbitmap :=
  let peer := peer.clear
  if msg.version = Openflow10.OFP_VERSION ∨ msg.version = Openflow12.OFP_VERSION then
    peer.addOfpVersion msg.version
  else
    match msg.helloelems with
    | none => peer.addOfpVersion msg.version
    | some versionbitmap => versionbitmap

/-- The handler of `eHelloIncompatible`: an error message with up to 64
octets of the HELLO, then the end of the negotiation. -/
def helloIncompatible (msg : CofmsgHello) : Code :=
  seq (effect (.sendMessage (.helloFailedIncompatible msg.version msg.xid (msg.pack.take 64))))
    (runFiniteStateMachine .negotiationFailed)

/-- Moves on the state machine once a version is chosen. -/
def moveOn : Code := fun c =>
  if c.ofpVersion = Openflow.OFP_VERSION_UNKNOWN then runFiniteStateMachine .disconnected c
  else match c.mode with
    | .controller =>
      if c.ofpVersion ≥ Openflow13.OFP_VERSION then runFiniteStateMachine .negotiating2 c
      else runFiniteStateMachine .established c
    | .datapath => runFiniteStateMachine .established c
    | .unknown => runFiniteStateMachine .closing c

/-- Step 2 of `hello_rcvd`. -/
def selectVersion (msg : CofmsgHello) : Code := fun c =>
  let common := c.versionbitmap.and c.versionbitmapPeer
  if common.getHighestOfpVersion = Openflow.OFP_VERSION_UNKNOWN then helloIncompatible msg c
  else moveOn { c with ofpVersion := common.getHighestOfpVersion }

def helloRcvd (msg : CofmsgHello) : Code :=
  seq sendHelloMessage <|
  seq (assign fun c => { c with flagHelloRcvd := true }) <|
  seq (effect (.dropTimer .waitForHello)) <|
  seq (assign fun c => { c with versionbitmapPeer := peerVersions c.versionbitmapPeer msg })
    (selectVersion msg)

/-! ## What the state machine leaves alone -/

/-- The version sets and the mode of `c'` are those of `c`. -/
structure Keeps (c c' : Crofconn) : Prop where
  own : c'.versionbitmap = c.versionbitmap
  peer : ∀ v, c'.versionbitmapPeer.test v = c.versionbitmapPeer.test v
  mode : c'.mode = c.mode

theorem Keeps.refl (c : Crofconn) : Keeps c c := ⟨rfl, fun _ => rfl, rfl⟩

theorem Keeps.trans {a b c : Crofconn} (h₁ : Keeps a b) (h₂ : Keeps b c) : Keeps a c :=
  ⟨h₂.own.trans h₁.own, fun v => (h₂.peer v).trans (h₁.peer v), h₂.mode.trans h₁.mode⟩

theorem sendHelloMessage_keeps (c : Crofconn) : Keeps c (sendHelloMessage c).1 := by
  unfold sendHelloMessage
  split <;> exact ⟨rfl, fun _ => rfl, rfl⟩

theorem FsmOp.exec_keeps (op : FsmOp) (c : Crofconn) : Keeps c (op.exec c).1 := by
  cases op with
  | sendHello => exact sendHelloMessage_keeps c
  | waitForHello => simp only [exec]; split <;> exact Keeps.refl c
  | _ => exact ⟨rfl, fun _ => rfl, rfl⟩

theorem execAll_keeps (ops : List FsmOp) (c : Crofconn) : Keeps c (execAll ops c).1 := by
  induction ops generalizing c with
  | nil => exact Keeps.refl c
  | cons op ops ih => exact (op.exec_keeps c).trans (ih _)

/-- **The state machine removes no version of an earlier peer.** -/
theorem runFiniteStateMachine_keeps (s : ConnState) (c : Crofconn) :
    Keeps c (runFiniteStateMachine s c).1 := by
  unfold runFiniteStateMachine
  split
  · exact Keeps.refl c
  · exact execAll_keeps _ c

theorem FsmOp.exec_ofpVersion (op : FsmOp) (c : Crofconn) : (op.exec c).1.ofpVersion =
    if op = .setVersionUnknown then Openflow.OFP_VERSION_UNKNOWN else c.ofpVersion := by
  cases op with
  | sendHello => simp only [exec, sendHelloMessage]; split <;> rfl
  | waitForHello => simp only [exec]; split <;> rfl
  | _ => rfl

/-- The state machine never chooses a version; it only forgets the choice. -/
theorem execAll_ofpVersion (ops : List FsmOp) (c : Crofconn) : (execAll ops c).1.ofpVersion =
    if .setVersionUnknown ∈ ops then Openflow.OFP_VERSION_UNKNOWN else c.ofpVersion := by
  induction ops generalizing c with
  | nil => rfl
  | cons op ops ih =>
    have h := ih (op.exec c).1
    rw [op.exec_ofpVersion] at h
    simp only [execAll, seq, h, List.mem_cons, eq_comm (a := FsmOp.setVersionUnknown)]
    by_cases hop : op = .setVersionUnknown <;> by_cases hops : .setVersionUnknown ∈ ops <;> simp [hop, hops]

theorem runFiniteStateMachine_ofpVersion (s : ConnState) (c : Crofconn) :
    (runFiniteStateMachine s c).1.ofpVersion = c.ofpVersion ∨
      (runFiniteStateMachine s c).1.ofpVersion = Openflow.OFP_VERSION_UNKNOWN := by
  unfold runFiniteStateMachine
  split
  · exact .inl rfl
  · rw [execAll_ofpVersion]
    split
    · exact .inr rfl
    · exact .inl rfl

/-- The state after an operation that finds `s`. -/
def FsmOp.nextState (s : ConnState) : FsmOp → ConnState
  | .setState s' => s'
  | _ => s

theorem FsmOp.exec_state (op : FsmOp) (c : Crofconn) : (op.exec c).1.state = op.nextState c.state := by
  cases op with
  | sendHello => simp only [exec, sendHelloMessage]; split <;> rfl
  | waitForHello => simp only [exec]; split <;> rfl
  | _ => rfl

theorem execAll_state (ops : List FsmOp) (c : Crofconn) :
    (execAll ops c).1.state = ops.foldl FsmOp.nextState c.state := by
  induction ops generalizing c with
  | nil => rfl
  | cons op ops ih =>
    simp only [execAll, seq, List.foldl_cons, ← op.exec_state]
    exact ih _

/-- Only `hello_rcvd` sets the flag of the peer's HELLO. -/
theorem FsmOp.exec_flagHelloRcvd (op : FsmOp) (c : Crofconn) : (op.exec c).1.flagHelloRcvd =
    if op = .clearHelloFlags then false else c.flagHelloRcvd := by
  cases op with
  | sendHello => simp only [exec, sendHelloMessage]; split <;> rfl
  | waitForHello => simp only [exec]; split <;> rfl
  | _ => rfl

theorem execAll_flagHelloRcvd (ops : List FsmOp) (c : Crofconn) : (execAll ops c).1.flagHelloRcvd =
    if .clearHelloFlags ∈ ops then false else c.flagHelloRcvd := by
  induction ops generalizing c with
  | nil => rfl
  | cons op ops ih =>
    have h := ih (op.exec c).1
    rw [op.exec_flagHelloRcvd] at h
    simp only [execAll, seq, h, List.mem_cons, eq_comm (a := FsmOp.clearHelloFlags)]
    by_cases hop : op = .clearHelloFlags <;> by_cases hops : .clearHelloFlags ∈ ops <;> simp [hop, hops]

/-- The state in which the state machine comes to rest when asked for `s`. -/
def settled : ConnState → ConnState
  | .negotiationFailed | .closing | .connectFailed | .connectRefused | .acceptFailed | .acceptRefused => .disconnected
  | s => s

/-- Coming to rest, from any other state. -/
theorem execAll_enter_state (s : ConnState) (c : Crofconn) :
    (execAll (.setState s :: caseOps s) c).1.state = settled s := by
  rw [execAll_state]
  cases s <;> rfl

theorem FsmOp.callback_mem_exec (op : FsmOp) (c : Crofconn) (s : ConnState) :
    .callback s ∈ (op.exec c).2 ↔ op = .callback s := by
  cases op with
  | sendHello => simp only [exec, sendHelloMessage]; split <;> simp
  | waitForHello => simp only [exec]; split <;> simp
  | callback t => simp [exec, effect, eq_comm]
  | _ => simp [exec, effect, assign, Crofconn.sendFeaturesRequest]

/-- The callbacks made are those in the list, whatever the operations do. -/
theorem callback_mem_execAll (ops : List FsmOp) (c : Crofconn) (s : ConnState) :
    .callback s ∈ (execAll ops c).2 ↔ .callback s ∈ ops := by
  induction ops generalizing c with
  | nil => simp [execAll]
  | cons op ops ih =>
    simp only [execAll, seq, List.mem_append, op.callback_mem_exec, ih, List.mem_cons]
    exact or_congr_left eq_comm

/-- Asked for the present state, the machine does nothing. -/
theorem runFiniteStateMachine_of_eq {s : ConnState} {c : Crofconn} (h : c.state = s) :
    runFiniteStateMachine s c = (c, []) := by
  simp only [runFiniteStateMachine, h, if_true]

/-- What moving to a state other than the present one does. -/
theorem runFiniteStateMachine_of_ne {s : ConnState} {c : Crofconn} (h : c.state ≠ s) :
    runFiniteStateMachine s c = execAll (.setState s :: caseOps s) c := by
  simp only [runFiniteStateMachine, h, if_false]

theorem runFiniteStateMachine_state (s : ConnState) (c : Crofconn) :
    (runFiniteStateMachine s c).1.state = if c.state = s then s else settled s := by
  split
  case isTrue h => rw [runFiniteStateMachine_of_eq h, h]
  case isFalse h => rw [runFiniteStateMachine_of_ne h, execAll_enter_state]

theorem openWith_state {pending : ConnState} {rofsock : Effect} {versionbitmap : Versionbitmap} {mode : Mode}
    {c : Crofconn} {r : Crofconn × List Effect} (hpending : settled pending = pending)
    (h : openWith pending rofsock versionbitmap mode c = some r) : r.1.state = pending := by
  obtain ⟨d, -, rfl⟩ := Option.map_eq_some_iff.mp h
  refine (runFiniteStateMachine_state pending _).trans ?_
  rw [hpending, ite_self]

/-! ## What a HELLO leaves behind -/

theorem test_peerVersions (peer : Versionbitmap) (msg : CofmsgHello) (v : Nat) :
    (peerVersions peer msg).test v = (msg.offers v || (msg.headerOnly && peer.test v)) := by
  unfold peerVersions CofmsgHello.offers CofmsgHello.headerOnly
  by_cases hver : msg.version = Openflow10.OFP_VERSION ∨ msg.version = Openflow12.OFP_VERSION
  · simp [hver]
  · cases msg.helloelems <;> simp [hver]

/-- The connection as `hello_rcvd` hands it to its second step. -/
def atSelection (c : Crofconn) (msg : CofmsgHello) : Crofconn :=
  { (sendHelloMessage c).1 with
    flagHelloRcvd := true, versionbitmapPeer := peerVersions c.versionbitmapPeer msg }

theorem helloRcvd_eq (c : Crofconn) (msg : CofmsgHello) :
    helloRcvd msg c = ((selectVersion msg (c.atSelection msg)).1,
      (sendHelloMessage c).2 ++ .dropTimer .waitForHello :: (selectVersion msg (c.atSelection msg)).2) := by
  have h : (sendHelloMessage c).1.versionbitmapPeer = c.versionbitmapPeer := by
    unfold sendHelloMessage
    split <;> rfl
  simp only [helloRcvd, seq, assign, effect, atSelection, h, List.nil_append, List.cons_append]

theorem helloIncompatible_keeps (msg : CofmsgHello) (c : Crofconn) : Keeps c (helloIncompatible msg c).1 :=
  runFiniteStateMachine_keeps .negotiationFailed c

theorem moveOn_keeps (c : Crofconn) : Keeps c (moveOn c).1 := by
  unfold moveOn
  split
  · exact runFiniteStateMachine_keeps _ c
  · split
    · split <;> exact runFiniteStateMachine_keeps _ c
    · exact runFiniteStateMachine_keeps _ c
    · exact runFiniteStateMachine_keeps _ c

theorem moveOn_ofpVersion (c : Crofconn) : (moveOn c).1.ofpVersion = c.ofpVersion ∨
    (moveOn c).1.ofpVersion = Openflow.OFP_VERSION_UNKNOWN := by
  unfold moveOn
  split
  · exact runFiniteStateMachine_ofpVersion _ c
  · split
    · split <;> exact runFiniteStateMachine_ofpVersion _ c
    · exact runFiniteStateMachine_ofpVersion _ c
    · exact runFiniteStateMachine_ofpVersion _ c

theorem selectVersion_keeps (msg : CofmsgHello) (c : Crofconn) : Keeps c (selectVersion msg c).1 := by
  unfold selectVersion
  dsimp only
  split
  · exact helloIncompatible_keeps msg c
  · have h := moveOn_keeps { c with ofpVersion := (c.versionbitmap.and c.versionbitmapPeer).getHighestOfpVersion }
    exact ⟨h.own, h.peer, h.mode⟩

/-- After a HELLO `versionbitmap_peer` holds what the HELLO offers and, where
only the header counts, what it held before. -/
theorem helloRcvd_keeps (msg : CofmsgHello) (c : Crofconn) : Keeps (c.atSelection msg) (helloRcvd msg c).1 := by
  rw [helloRcvd_eq]
  exact selectVersion_keeps msg _

end Crofconn
end RoflCommon
