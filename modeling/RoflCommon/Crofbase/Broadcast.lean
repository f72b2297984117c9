/-
Sending an asynchronous event to all controllers.

The three functions of `crofbase` share a loop, and each calls the function of
the same name of one established controller after another. What that throws, or
`is_established` does, ends the loop, so a controller without the auxiliary
connection asked for keeps the event from those behind it (`reaches_iff`).
-/
import RoflCommon.Crofchan
import RoflCommon.Crofctl.Async
import RoflCommon.Crofsock.Send

namespace RoflCommon

/-- A controller with its channel, whose version is the one that counts. -/
structure AttachedCtl where
  ctl : Crofctl
  chan : Crofchan
  version : ctl.version = chan.ofpVersion

inductive BaseException
  /-- `eRofBaseNotConnected`. -/
  | notConnected
  | chan (e : ChanException)
deriving DecidableEq, Repr

/-- The controllers whose function has been called, and what the call threw. -/
structure Broadcast where
  offered : List ℕ
  exception : Option BaseException
deriving DecidableEq, Repr

/-- The connections, and what each of them answers when it is given a message
(`MSG_QUEUEING_FAILED_QUEUE_FULL`, say). -/
structure Network where
  heap : ConnHeap
  answer : ℕ → MsgResult

namespace AttachedCtl

variable (a : AttachedCtl) (n : Network) (auxid : Auxid) (reason : UInt8)

/-- The way of an event through the controller, which throws what the channel
does. -/
def send (passes : Bool) : Except ChanException MsgResult :=
  if passes then
    match a.chan.sendMessage n.heap auxid none with
    | .error e => .error e
    | .ok f => .ok (n.answer f.conn)
  else .ok .ignored

def sendPacketInMessage : Except ChanException MsgResult := a.send n auxid (a.ctl.sendPacketInMessage reason)

def sendFlowRemovedMessage : Except ChanException MsgResult := a.send n auxid (a.ctl.sendFlowRemovedMessage reason)

def sendPortStatusMessage : Except ChanException MsgResult := a.send n auxid (a.ctl.sendPortStatusMessage reason)

end AttachedCtl

namespace Broadcast

variable (n : Network) (auxid : Auxid) (reason : UInt8)

/-- The loop over the controllers; `sentOut` is the variable of the name. -/
def loop (send : AttachedCtl → Except ChanException MsgResult) : Bool → List (ℕ × AttachedCtl) → Broadcast
  | sentOut, [] => ⟨[], if sentOut then none else some .notConnected⟩
  | sentOut, (ctlid, a) :: as =>
    match a.chan.isEstablished n.heap with
    | .error e => ⟨[], some (.chan e)⟩
    | .ok false => loop send sentOut as
    | .ok true =>
      match send a with
      | .error e => ⟨[ctlid], some (.chan e)⟩
      | .ok _ =>
        let r := loop send true as
        ⟨ctlid :: r.offered, r.exception⟩

def sendPacketInMessage (rofctls : Omap ℕ AttachedCtl) : Broadcast :=
  loop n (·.sendPacketInMessage n auxid reason) false rofctls.entries

def sendFlowRemovedMessage (rofctls : Omap ℕ AttachedCtl) : Broadcast :=
  loop n (·.sendFlowRemovedMessage n auxid reason) false rofctls.entries

def sendPortStatusMessage (rofctls : Omap ℕ AttachedCtl) : Broadcast :=
  loop n (·.sendPortStatusMessage n auxid reason) false rofctls.entries

def send (rofctls : Omap ℕ AttachedCtl) : AsyncEvent → Broadcast
  | .packetIn => sendPacketInMessage n auxid reason rofctls
  | .flowRemoved => sendFlowRemovedMessage n auxid reason rofctls
  | .portStatus => sendPortStatusMessage n auxid reason rofctls

/-- The event is offered to the established controllers, to each once, and
`eRofBaseNotConnected` is thrown if there are none. -/
structure Reaches (rofctls : Omap ℕ AttachedCtl) (r : Broadcast) : Prop where
  offered : ∀ ctlid, r.offered.count ctlid =
    if (rofctls.find? ctlid).any (·.chan.mainUp n.heap) then 1 else 0
  notConnected : r.exception = some .notConnected ↔ ∀ e ∈ rofctls.entries, e.2.chan.mainUp n.heap = false

/-- There is an established connection of the id. -/
def HasConn (a : AttachedCtl) : Prop := (a.chan.conns.find? auxid).any (fun id => (n.heap.conn id).established) = true

/-- The controller ends the loop: its channel has lost its main connection, or
it is established and wants the event, which has no connection to go by. -/
def Stops (event : AsyncEvent) (a : AttachedCtl) : Prop :=
  a.chan.Headless ∨ (a.chan.mainUp n.heap = true ∧ a.ctl.sends event reason = true ∧ ¬ HasConn n auxid a)

/-- No established controller is behind one that ends the loop, and one that has
lost its main connection is not met if there is none established. -/
structure Unhindered (rofctls : Omap ℕ AttachedCtl) (event : AsyncEvent) : Prop where
  behind : rofctls.entries.Pairwise fun e e' => Stops n auxid reason event e.2 → e'.2.chan.mainUp n.heap = false
  headed : (∀ e ∈ rofctls.entries, e.2.chan.mainUp n.heap = false) → ∀ e ∈ rofctls.entries, ¬ e.2.chan.Headless

/-! ## One controller -/

section Loop

variable {n auxid reason} {send : AttachedCtl → Except ChanException MsgResult} {event : AsyncEvent}

theorem loop_headless {e : ℕ × AttachedCtl} {es : List (ℕ × AttachedCtl)} {sentOut : Bool} (h : e.2.chan.Headless) :
    loop n send sentOut (e :: es) = ⟨[], some (.chan .outOfRange)⟩ := by
  simp [loop, Crofchan.isEstablished_of_headless h]

theorem loop_down {e : ℕ × AttachedCtl} {es : List (ℕ × AttachedCtl)} {sentOut : Bool} (h : ¬ e.2.chan.Headless)
    (hup : e.2.chan.mainUp n.heap = false) : loop n send sentOut (e :: es) = loop n send sentOut es := by
  simp [loop, Crofchan.isEstablished_of_not_headless h, hup]

theorem loop_up {e : ℕ × AttachedCtl} {es : List (ℕ × AttachedCtl)} {sentOut : Bool}
    (hup : e.2.chan.mainUp n.heap = true) : loop n send sentOut (e :: es) =
    match send e.2 with
    | .error x => ⟨[e.1], some (.chan x)⟩
    | .ok _ => ⟨e.1 :: (loop n send true es).offered, (loop n send true es).exception⟩ := by
  have h : ¬ e.2.chan.Headless := fun h => by simp [Crofchan.mainUp_of_headless h] at hup
  simp only [loop, Crofchan.isEstablished_of_not_headless h, hup]

/-- An established controller throws when it ends the loop. -/
theorem send_throws {a : AttachedCtl} (hup : a.chan.mainUp n.heap = true) :
    (∃ x, a.send n auxid (a.ctl.sends event reason) = .error x) ↔ Stops n auxid reason event a := by
  have h : ¬ a.chan.Headless := fun h => by simp [Crofchan.mainUp_of_headless h] at hup
  unfold Stops HasConn AttachedCtl.send Crofchan.sendMessage
  rw [Crofchan.isEstablished_of_not_headless h, hup]
  cases hsends : a.ctl.sends event reason with
  | false => simp [h]
  | true =>
    cases haux : a.chan.conns.find? auxid with
    | none => simp
    | some id => by_cases hid : (n.heap.conn id).established = true <;> simp [h, hid]

/-! ## The loop -/

variable (n) in
/-- The ids of the established controllers. -/
def upIds (es : List (ℕ × AttachedCtl)) : List ℕ := (es.filter (·.2.chan.mainUp n.heap)).map Prod.fst

theorem upIds_cons_down {e : ℕ × AttachedCtl} {es : List (ℕ × AttachedCtl)} (hup : e.2.chan.mainUp n.heap = false) :
    upIds n (e :: es) = upIds n es := by
  simp [upIds, hup]

theorem upIds_cons_up {e : ℕ × AttachedCtl} {es : List (ℕ × AttachedCtl)} (hup : e.2.chan.mainUp n.heap = true) :
    upIds n (e :: es) = e.1 :: upIds n es := by
  simp [upIds, hup]

theorem upIds_eq_nil {es : List (ℕ × AttachedCtl)} : upIds n es = [] ↔ ∀ e ∈ es, e.2.chan.mainUp n.heap = false := by
  simp [upIds, List.filter_eq_nil_iff]

theorem offered_isPrefix (sentOut : Bool) (es : List (ℕ × AttachedCtl)) :
    (loop n send sentOut es).offered <+: upIds n es := by
  induction es generalizing sentOut with
  | nil => simp [loop, upIds]
  | cons e es ih =>
    by_cases hheadless : e.2.chan.Headless
    · rw [loop_headless hheadless]
      exact List.nil_prefix
    cases hup : e.2.chan.mainUp n.heap with
    | false =>
      rw [loop_down hheadless hup, upIds_cons_down hup]
      exact ih sentOut
    | true =>
      rw [loop_up hup, upIds_cons_up hup]
      cases send e.2 with
      | error x => exact List.prefix_cons_inj e.1 |>.mpr List.nil_prefix
      | ok r => exact List.prefix_cons_inj e.1 |>.mpr (ih true)

/-- All established controllers are served exactly if there is none behind one
that ends the loop. -/
theorem offered_eq_iff (hsend : ∀ a : AttachedCtl, a.chan.mainUp n.heap = true →
    ((∃ x, send a = .error x) ↔ Stops n auxid reason event a)) (sentOut : Bool) (es : List (ℕ × AttachedCtl)) :
    (loop n send sentOut es).offered = upIds n es ↔
      es.Pairwise fun e e' => Stops n auxid reason event e.2 → e'.2.chan.mainUp n.heap = false := by
  -- behind one that ends the loop there is nothing more to ask
  have hend : ∀ {e : ℕ × AttachedCtl} {es : List (ℕ × AttachedCtl)}, Stops n auxid reason event e.2 →
      ([] = upIds n es ↔ (e :: es).Pairwise fun e e' =>
        Stops n auxid reason event e.2 → e'.2.chan.mainUp n.heap = false) := by
    intro e es hstops
    rw [eq_comm, upIds_eq_nil, List.pairwise_cons]
    constructor
    · intro h
      exact ⟨fun e' he' _ => h e' he', List.pairwise_iff_forall_sublist.mpr fun hsub _ =>
        h _ (hsub.subset (by simp))⟩
    · intro h e' he'
      exact h.1 e' he' hstops
  induction es generalizing sentOut with
  | nil => simp [loop, upIds]
  | cons e es ih =>
    by_cases hheadless : e.2.chan.Headless
    · rw [loop_headless hheadless, upIds_cons_down (Crofchan.mainUp_of_headless hheadless)]
      exact hend (.inl hheadless)
    cases hup : e.2.chan.mainUp n.heap with
    | false =>
      have hgoes : ¬ Stops n auxid reason event e.2 := by simp [Stops, hheadless, hup]
      rw [loop_down hheadless hup, upIds_cons_down hup, List.pairwise_cons]
      simpa [hgoes] using ih sentOut
    | true =>
      rw [loop_up hup, upIds_cons_up hup]
      cases hresult : send e.2 with
      | error x =>
        rw [List.cons_inj_right]
        exact hend ((hsend e.2 hup).mp ⟨x, hresult⟩)
      | ok r =>
        have hgoes : ¬ Stops n auxid reason event e.2 := fun h => by
          obtain ⟨x, hx⟩ := (hsend e.2 hup).mpr h
          simp [hresult] at hx
        rw [List.cons_inj_right, List.pairwise_cons]
        simpa [hgoes] using ih true

/-- The exception is thrown where the loop gets through and has served nobody. -/
theorem exception_eq_iff (sentOut : Bool) (es : List (ℕ × AttachedCtl)) :
    (loop n send sentOut es).exception = some .notConnected ↔
      sentOut = false ∧ ∀ e ∈ es, e.2.chan.mainUp n.heap = false ∧ ¬ e.2.chan.Headless := by
  induction es generalizing sentOut with
  | nil => cases sentOut <;> simp [loop]
  | cons e es ih =>
    by_cases hheadless : e.2.chan.Headless
    · rw [loop_headless hheadless]
      simp [hheadless]
    cases hup : e.2.chan.mainUp n.heap with
    | false =>
      rw [loop_down hheadless hup, ih sentOut]
      simp [hheadless, hup]
    | true =>
      rw [loop_up hup]
      cases send e.2 with
      | error x => simp [hup]
      | ok r => simp [ih true, hup]

end Loop

/-- **An event reaches all established controllers exactly when none of them is
behind one that ends the loop.** -/
theorem reaches_iff (rofctls : Omap ℕ AttachedCtl) (event : AsyncEvent) :
    Reaches n rofctls (send n auxid reason rofctls event) ↔ Unhindered n auxid reason rofctls event := by
  have hloop : send n auxid reason rofctls event =
      loop n (fun a => a.send n auxid (a.ctl.sends event reason)) false rofctls.entries := by
    cases event <;> rfl
  have hnodup : (upIds n rofctls.entries).Nodup :=
    rofctls.nodup_keys.sublist (List.filter_sublist.map Prod.fst)
  have hmem : ∀ ctlid, ctlid ∈ upIds n rofctls.entries ↔
      (rofctls.find? ctlid).any (·.chan.mainUp n.heap) = true := by
    intro ctlid
    simp [upIds, Option.any_eq_true, Omap.find?_eq_some]
  have hcount : ∀ ctlid, (upIds n rofctls.entries).count ctlid =
      if (rofctls.find? ctlid).any (·.chan.mainUp n.heap) then 1 else 0 := by
    intro ctlid
    rw [hnodup.count]
    exact if_congr (hmem ctlid) rfl rfl
  have hoffered : (send n auxid reason rofctls event).offered = upIds n rofctls.entries ↔ rofctls.entries.Pairwise
      fun e e' => Stops n auxid reason event e.2 → e'.2.chan.mainUp n.heap = false := by
    rw [hloop]
    exact offered_eq_iff (fun a => send_throws) false rofctls.entries
  have hexception : (send n auxid reason rofctls event).exception = some .notConnected ↔
      ∀ e ∈ rofctls.entries, e.2.chan.mainUp n.heap = false ∧ ¬ e.2.chan.Headless := by
    rw [hloop, exception_eq_iff]
    simp
  constructor
  · intro h
    refine ⟨hoffered.mp ?_, fun hdown e he => (hexception.mp (h.notConnected.mpr hdown) e he).2⟩
    have hsub : (send n auxid reason rofctls event).offered <+: upIds n rofctls.entries := by
      rw [hloop]
      exact offered_isPrefix false rofctls.entries
    have hperm : (send n auxid reason rofctls event).offered.Perm (upIds n rofctls.entries) :=
      List.perm_iff_count.mpr fun ctlid => (h.offered ctlid).trans (hcount ctlid).symm
    exact hsub.eq_of_length hperm.length_eq
  · intro h
    refine ⟨fun ctlid => ?_, hexception.trans ?_⟩
    · rw [hoffered.mpr h.behind, hcount]
    · exact ⟨fun hall e he => (hall e he).1, fun hdown e he => ⟨hdown e he, h.headed hdown e he⟩⟩

/-- Two controllers, both established, the second with the auxiliary connection 1
as well. -/
def twoCtls : Omap ℕ AttachedCtl :=
  let ctl : Crofctl := { Crofctl.new with version := Openflow13.OFP_VERSION }
  let chan (conns : Omap Auxid ℕ) : Crofchan := { Crofchan.new with conns, ofpVersion := Openflow13.OFP_VERSION }
  (Omap.empty.insert 0 ⟨ctl, chan (Omap.empty.insert 0 0), rfl⟩).insert 1
    ⟨ctl, chan ((Omap.empty.insert 0 1).insert 1 2), rfl⟩

/-- The three connections are established. -/
def allUp : Network where
  heap :=
    { conn := fun id => ⟨if id = 2 then 1 else 0, 0, Openflow13.OFP_VERSION, true, true⟩
      env := fun id => some (if id = 0 then 0 else 1)
      next := 3
      connsDeletion := [] }
  answer := fun _ => .queued

/-- A packet-in for the auxiliary connection 1 gets to neither. -/
theorem second_not_served : (send allUp 1 0 twoCtls .packetIn).offered = [0] ∧
    (send allUp 1 0 twoCtls .packetIn).exception = some (.chan .exception) ∧
    ¬ Reaches allUp twoCtls (send allUp 1 0 twoCtls .packetIn) := by
  refine ⟨by decide +kernel, by decide +kernel, fun h => ?_⟩
  have hone := h.offered 1
  revert hone
  decide +kernel

end Broadcast

end RoflCommon
