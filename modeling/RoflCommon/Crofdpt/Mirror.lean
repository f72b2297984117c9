/-
The ports of a datapath, and the copy that `crofdpt` keeps of them.

The datapath tells every change of a port with a PORT_STATUS, and when it is asked the ports
as a whole, in 1.0 and 1.2 with the FEATURES_REPLY, in 1.3 with a description. All of these
are sent by way of one queue (`told_txqueue`). On the other side a description goes into
another queue than a PORT_STATUS, and the queues are served by rank, not in order: so in 1.0
and 1.2 the copy is what the ports have been a while ago (`mirrors`), and in 1.3 a
description may undo a change that was told after it (`mirrors_iff`, `stale`).
-/
import RoflCommon.Crofdpt
import RoflCommon.Lib.Mirror

namespace RoflCommon

open Update

/-! ## What a message says of the ports -/

namespace DptMsg

/-- What the handler makes of the ports. -/
def update (m : DptMsg) : Option (Update ℕ Cofport) :=
  match m.handler with
  | some .portStatus =>
    if m.reason = Openflow.OFPPR_ADD ∨ m.reason = Openflow.OFPPR_MODIFY then
      some (.put m.port.portno.toNat (some m.port))
    else if m.reason = Openflow.OFPPR_DELETE then some (.put m.port.portno.toNat none)
    else none
  | some .featuresReply =>
    if m.version = Openflow10.OFP_VERSION ∨ m.version = Openflow12.OFP_VERSION then some (.all m.ports.ports.find?)
    else none
  | some (.statsReply .portDesc) =>
    if m.version = Openflow10.OFP_VERSION ∨ m.version = Openflow12.OFP_VERSION then none
    else some (.all m.ports.ports.find?)
  | _ => none

end DptMsg

namespace DptSnoop

variable {s : DptSnoop} {m : DptMsg}

theorem portStatusRcvd_find? (hsnoop : s.snoop = true) (k : ℕ) : (s.portStatusRcvd m).ports.ports.find? k =
    if m.reason = Openflow.OFPPR_ADD ∨ m.reason = Openflow.OFPPR_MODIFY then
      under k (s.ports.ports.find? k) (.put m.port.portno.toNat (some m.port))
    else if m.reason = Openflow.OFPPR_DELETE then
      under k (s.ports.ports.find? k) (.put m.port.portno.toNat none)
    else s.ports.ports.find? k := by
  have hne : Openflow.OFPPR_DELETE ≠ Openflow.OFPPR_ADD ∧ Openflow.OFPPR_DELETE ≠ Openflow.OFPPR_MODIFY := by decide
  unfold portStatusRcvd
  rw [if_pos hsnoop]
  by_cases hadd : m.reason = Openflow.OFPPR_ADD
  · simp [hadd, under, eq_comm]
  · by_cases hdelete : m.reason = Openflow.OFPPR_DELETE
    · simp [hdelete, hne.1, hne.2, under, eq_comm]
    · by_cases hmodify : m.reason = Openflow.OFPPR_MODIFY
      · simp [hmodify, hne.2.symm, show Openflow.OFPPR_MODIFY ≠ Openflow.OFPPR_ADD by decide, under, eq_comm]
      · simp [hadd, hdelete, hmodify]

/-- The copy takes what the message says. -/
theorem handleRecv_find? (hsnoop : s.snoop = true) (hversion : m.version = s.version) {c : MsgClass}
    (hclass : m.msgClass = .ok c) (k : ℕ) :
    (s.handleRecv m).1.ports.ports.find? k = (m.update.map (under k (s.ports.ports.find? k))).getD
      (s.ports.ports.find? k) := by
  unfold handleRecv DptMsg.update
  cases hhandler : m.handler with
  | none => rfl
  | some h =>
    have hc : m.msgClass = .ok h := by
      rw [DptMsg.handler_eq hclass] at hhandler
      split at hhandler
      next => rw [hclass, Option.some.inj hhandler]
      next => cases hhandler
    simp only [hc, ↓reduceIte]
    cases h with
    | portStatus =>
      simp only [rcvd, portStatusRcvd_find? hsnoop]
      split_ifs <;> rfl
    | featuresReply =>
      simp only [rcvd, featuresReplyRcvd, hsnoop, hversion, ↓reduceIte]
      split_ifs <;> rfl
    | statsReply kind =>
      cases kind with
      | portDesc =>
        simp only [rcvd, portDescStatsReplyRcvd, hsnoop, hversion]
        by_cases h10 : s.version = Openflow10.OFP_VERSION
        · simp [h10]
        · by_cases h12 : s.version = Openflow12.OFP_VERSION
          · simp [h12]
          · simp [h10, h12, under]
      | groupFeatures =>
        simp only [rcvd, groupFeaturesStatsReplyRcvd]
        split_ifs <;> rfl
      | tableFeatures =>
        simp only [rcvd, tableFeaturesStatsReplyRcvd]
        split_ifs <;> rfl
      | _ => rfl
    | getConfigReply =>
      rw [rcvd, getConfigReplyRcvd, if_pos hsnoop]
      rfl
    | _ => rfl

/-- The copy is written to with what is asked of the datapath, if it knows the port. -/
theorem sendPortModMessage_find? (portNo : ℕ) (hwaddr : BitVec 48) (config advertise : UInt32) :
    (s.sendPortModMessage portNo hwaddr config advertise = s) ∨
      ∃ v, ∀ k, (s.sendPortModMessage portNo hwaddr config advertise).ports.ports.find? k =
        Function.update s.ports.ports.find? portNo v k := by
  unfold sendPortModMessage
  split
  · cases hfind : s.ports.ports.find? portNo with
    | none => exact .inl rfl
    | some port =>
      refine .inr ⟨some (modPort port hwaddr config advertise), fun k => ?_⟩
      rw [Omap.find?_insert, Function.update_apply]
  · exact .inl rfl

@[simp] theorem sendPortModMessage_snoop (portNo : ℕ) (hwaddr : BitVec 48) (config advertise : UInt32) :
    (s.sendPortModMessage portNo hwaddr config advertise).snoop = s.snoop := by
  unfold sendPortModMessage
  split
  · split <;> rfl
  · rfl

@[simp] theorem sendPortModMessage_version (portNo : ℕ) (hwaddr : BitVec 48) (config advertise : UInt32) :
    (s.sendPortModMessage portNo hwaddr config advertise).version = s.version := by
  unfold sendPortModMessage
  split
  · split <;> rfl
  · rfl

theorem rcvd_snoop_version (h : MsgClass) : (s.rcvd m h).snoop = s.snoop ∧ (s.rcvd m h).version = s.version := by
  unfold rcvd featuresReplyRcvd getConfigReplyRcvd portStatusRcvd groupFeaturesStatsReplyRcvd
    tableFeaturesStatsReplyRcvd portDescStatsReplyRcvd
  split <;> try split_ifs
  all_goals exact ⟨rfl, rfl⟩

theorem handleRecv_snoop_version : (s.handleRecv m).1.snoop = s.snoop ∧ (s.handleRecv m).1.version = s.version := by
  unfold handleRecv
  split
  · exact ⟨rfl, rfl⟩
  · split
    · exact rcvd_snoop_version _
    · exact ⟨rfl, rfl⟩

end DptSnoop

/-! ## The queues -/

namespace DptMsg

/-- The receive queue of the messages that have all ports. -/
def wholeQueue (version : UInt8) : QueueId := if version = Openflow13.OFP_VERSION then .flow else .mgmt

/-- The receive queue of an update. -/
def queueOf (version : UInt8) : Update ℕ Cofport → QueueId
  | .put _ _ => .mgmt
  | .all _ => wholeQueue version

theorem handler_of_update {m : DptMsg} {u : Update ℕ Cofport} (h : m.update = some u) :
    (m.handler = some .portStatus ∧ ∃ k v, u = .put k v) ∨
    (m.handler = some .featuresReply ∧ u = .all m.ports.ports.find? ∧
      (m.version = Openflow10.OFP_VERSION ∨ m.version = Openflow12.OFP_VERSION)) ∨
    (m.handler = some (.statsReply .portDesc) ∧ u = .all m.ports.ports.find? ∧
      ¬ (m.version = Openflow10.OFP_VERSION ∨ m.version = Openflow12.OFP_VERSION)) := by
  unfold update at h
  split at h
  next hhandler =>
    refine .inl ⟨hhandler, ?_⟩
    split_ifs at h <;> obtain rfl := Option.some.inj h <;> exact ⟨_, _, rfl⟩
  next hhandler =>
    split_ifs at h with hversion
    exact .inr (.inl ⟨hhandler, (Option.some.inj h).symm, hversion⟩)
  next hhandler =>
    split_ifs at h with hversion
    exact .inr (.inr ⟨hhandler, (Option.some.inj h).symm, hversion⟩)
  next => cases h

/-- A handler that is none of a statistics message is one of the table. -/
theorem mem_of_handlerOf {handlers : List (UInt8 × MsgClass)} {reply : UInt8} {m : DptMsg} {c : MsgClass}
    (h : handlerOf handlers reply m = some c) (hc : ∀ kind, c ≠ .statsReply kind) : (m.type, c) ∈ handlers := by
  unfold handlerOf at h
  split at h
  · obtain ⟨kind, -, heq⟩ := Option.map_eq_some_iff.mp h
    exact absurd heq.symm (hc kind)
  · exact RecvStmt.mem_of_lookup h

/-- The messages that tell of ports are sent by way of one queue. -/
theorem told_txqueue {m : DptMsg} {u : Update ℕ Cofport} (h : m.update = some u) :
    txqueueOf m.version m.type = .mgmt ∧ rxqueueOf m.version m.type = some (queueOf m.version u) := by
  have h10 : ∀ e ∈ handlers10, e.2 = .portStatus ∨ e.2 = .featuresReply →
      txqueueOf Openflow10.OFP_VERSION e.1 = .mgmt ∧ rxqueueOf Openflow10.OFP_VERSION e.1 = some .mgmt := by decide
  have h12 : ∀ e ∈ handlers12, e.2 = .portStatus ∨ e.2 = .featuresReply →
      txqueueOf Openflow12.OFP_VERSION e.1 = .mgmt ∧ rxqueueOf Openflow12.OFP_VERSION e.1 = some .mgmt := by decide
  have h13 : ∀ e ∈ handlers13, e.2 = .portStatus →
      txqueueOf Openflow13.OFP_VERSION e.1 = .mgmt ∧ rxqueueOf Openflow13.OFP_VERSION e.1 = some .mgmt := by decide
  have hdesc : ∀ e ∈ handlers13, ∀ kind, e.2 ≠ .statsReply kind := by
    intro e he kind heq
    have : ∀ e ∈ handlers13, e.2.ofDatapath ∧ (∀ kind ∈ stats13.map Prod.snd, e.2 ≠ .statsReply kind) := by decide
    exact (this e he).2 kind (by cases kind <;> decide) heq
  obtain ⟨hhandler, k, v, rfl⟩ | ⟨hhandler, rfl, hversion⟩ | ⟨hhandler, rfl, hversion⟩ := handler_of_update h
  all_goals unfold handler at hhandler
  · split at hhandler
    next hv =>
      rw [hv]
      exact h10 _ (mem_of_handlerOf hhandler (by simp)) (.inl rfl)
    next =>
      split at hhandler
      next hv =>
        rw [hv]
        exact h12 _ (mem_of_handlerOf hhandler (by simp)) (.inl rfl)
      next =>
        split at hhandler
        next hv =>
          rw [hv]
          exact h13 _ (mem_of_handlerOf hhandler (by simp)) rfl
        next => cases hhandler
  · rcases hversion with hv | hv
    · rw [if_pos hv] at hhandler
      rw [hv]
      exact h10 _ (mem_of_handlerOf hhandler (by simp)) (.inr rfl)
    · rw [if_neg (by rw [hv]; decide), if_pos hv] at hhandler
      rw [hv]
      exact h12 _ (mem_of_handlerOf hhandler (by simp)) (.inr rfl)
  · rw [not_or] at hversion
    rw [if_neg hversion.1, if_neg hversion.2] at hhandler
    split at hhandler
    next hv =>
      unfold handlerOf at hhandler
      split at hhandler
      next htype =>
        rw [hv, htype]
        show _ ∧ _ = some (wholeQueue Openflow13.OFP_VERSION)
        decide
      next => exact absurd rfl (hdesc _ (RecvStmt.mem_of_lookup hhandler) .portDesc)
    next => cases hhandler

end DptMsg

/-! ## The session -/

/-- A datapath, what it has sent, and the object of its controller. The messages that wait
to be sent and those on the wire are one list for each queue of the sender. The last two
fields record where the entries of the copy come from. -/
structure DptSession where
  ports : Omap ℕ Cofport
  txqueues : QueueId → List DptMsg
  rxqueues : QueueId → List DptMsg
  dpt : DptSnoop
  basis : ℕ → Basis
  shot : ℕ → Option Cofport

namespace DptSession

/-- What the message says of a port has just come to pass. -/
def changed (ports : Omap ℕ Cofport) : Option (Update ℕ Cofport) → Omap ℕ Cofport
  | some (.put k (some port)) => ports.insert k port
  | some (.put k none) => ports.erase k
  | _ => ports

/-- A message with all ports has those of the datapath. -/
def Current (s : DptSession) (m : DptMsg) : Option (Update ℕ Cofport) → Prop
  | some (.all _) => m.ports.ports = s.ports
  | _ => True

instance (s : DptSession) (m : DptMsg) : ∀ u, Decidable (s.Current m u)
  | none => isTrue trivial
  | some (.put _ _) => isTrue trivial
  | some (.all _) => inferInstanceAs (Decidable (_ = _))

/-- A message of the parser, in the version of the channel. -/
def Tells (s : DptSession) (m : DptMsg) : Prop :=
  m.version = s.dpt.version ∧ m.msgClass.toOption.isSome ∧ s.Current m m.update

instance (s : DptSession) (m : DptMsg) : Decidable (s.Tells m) := inferInstanceAs (Decidable (_ ∧ _ ∧ _))

inductive Act
  /-- The datapath sends a message, on account of a change if it tells of one. -/
  | tell (m : DptMsg)
  /-- `crofconn::handle_recv`. -/
  | receive (q : QueueId)
  /-- A message is handed over. -/
  | handle (q : QueueId)
  | portMod (portNo : ℕ) (hwaddr : BitVec 48) (config advertise : UInt32)

def step (s : DptSession) : Act → Option DptSession
  | .tell m =>
    if s.Tells m then
      let q := txqueueOf m.version m.type
      some { s with
        ports := changed s.ports m.update, txqueues := Function.update s.txqueues q (s.txqueues q ++ [m]) }
    else none
  | .receive q =>
    match s.txqueues q with
    | [] => none
    | m :: ms => (rxqueueOf s.dpt.version m.type).map fun c => { s with
        txqueues := Function.update s.txqueues q ms
        rxqueues := Function.update s.rxqueues c (s.rxqueues c ++ [m]) }
  | .handle q =>
    match s.rxqueues q with
    | [] => none
    | m :: ms =>
      let s := { s with rxqueues := Function.update s.rxqueues q ms, dpt := (s.dpt.handleRecv m).1 }
      match m.update with
      | none => some s
      | some (.put k _) => some { s with basis := Function.update s.basis k .put }
      | some (.all f) => some { s with basis := fun _ => .all, shot := f }
  | .portMod portNo hwaddr config advertise =>
    let dpt := s.dpt.sendPortModMessage portNo hwaddr config advertise
    some { s with dpt := dpt, basis := if dpt = s.dpt then s.basis else Function.update s.basis portNo .own }

/-- Whatever the copy is at first. -/
def new (ports : Omap ℕ Cofport) (dpt : DptSnoop) : DptSession :=
  ⟨ports, fun _ => [], fun _ => [], dpt, fun _ => .start, ports.find?⟩

/-- What is under way to a receive queue, of the messages that tell of ports. -/
def pending (s : DptSession) (c : QueueId) : List DptMsg :=
  s.rxqueues c ++ (s.txqueues .mgmt).filter fun m => rxqueueOf s.dpt.version m.type = some c

/-- The session is a copy kept by messages. -/
def toMirror (s : DptSession) : Mirror ℕ Cofport QueueId where
  source := s.ports.find?
  queues c := (s.pending c).filterMap DptMsg.update
  copy := s.dpt.ports.ports.find?
  basis := s.basis
  shot := s.shot

/-- The messages are where they belong. -/
structure Sorted (s : DptSession) : Prop where
  snoop : s.dpt.snoop = true
  tx : ∀ q, ∀ m ∈ s.txqueues q, m.version = s.dpt.version ∧ (∃ c, m.msgClass = .ok c) ∧
    txqueueOf m.version m.type = q
  rx : ∀ q, ∀ m ∈ s.rxqueues q, m.version = s.dpt.version ∧ (∃ c, m.msgClass = .ok c) ∧
    rxqueueOf m.version m.type = some q

variable {s s' : DptSession}

theorem find?_changed (ports : Omap ℕ Cofport) {k : ℕ} {v : Option Cofport} :
    (changed ports (some (.put k v))).find? = Function.update ports.find? k v := by
  funext k'
  cases v with
  | none => rw [changed, Omap.find?_erase, Function.update_apply]
  | some port => rw [changed, Omap.find?_insert, Function.update_apply]

theorem Sorted.step {act : Act} (h : s.Sorted) (hstep : s.step act = some s') : s'.Sorted := by
  cases act with
  | tell m =>
    simp only [DptSession.step] at hstep
    split at hstep
    next htells =>
      obtain rfl := Option.some.inj hstep
      refine ⟨h.snoop, fun q m' hm' => ?_, h.rx⟩
      by_cases hq : q = txqueueOf m.version m.type
      · subst hq
        dsimp only at hm'
        rw [Function.update_self] at hm'
        rcases List.mem_append.mp hm' with hm' | hm'
        · exact h.tx _ m' hm'
        · obtain rfl := List.mem_singleton.mp hm'
          refine ⟨htells.1, ?_, rfl⟩
          have hclass := htells.2.1
          cases hm : m'.msgClass with
          | error e => simp [hm, Except.toOption] at hclass
          | ok c => exact ⟨c, rfl⟩
      · exact h.tx q m' (by simpa [Function.update_of_ne hq] using hm')
    next => cases hstep
  | receive q =>
    simp only [DptSession.step] at hstep
    cases hqueue : s.txqueues q with
    | nil =>
      rw [hqueue] at hstep
      cases hstep
    | cons m ms =>
      rw [hqueue] at hstep
      obtain ⟨c, hc, rfl⟩ := Option.map_eq_some_iff.mp hstep
      have hm := h.tx q m (by rw [hqueue]; exact List.mem_cons_self)
      refine ⟨h.snoop, fun q' m' hm' => ?_, fun c' m' hm' => ?_⟩
      · by_cases hq : q' = q
        · subst hq
          dsimp only at hm'
          rw [Function.update_self] at hm'
          exact h.tx q' m' (by rw [hqueue]; exact List.mem_cons_of_mem m hm')
        · exact h.tx q' m' (by simpa [Function.update_of_ne hq] using hm')
      · by_cases hc' : c' = c
        · subst hc'
          dsimp only at hm'
          rw [Function.update_self] at hm'
          rcases List.mem_append.mp hm' with hm' | hm'
          · exact h.rx c' m' hm'
          · obtain rfl := List.mem_singleton.mp hm'
            exact ⟨hm.1, hm.2.1, by rw [hm.1, hc]⟩
        · exact h.rx c' m' (by simpa [Function.update_of_ne hc'] using hm')
  | handle q =>
    simp only [DptSession.step] at hstep
    cases hqueue : s.rxqueues q with
    | nil =>
      rw [hqueue] at hstep
      cases hstep
    | cons m ms =>
      rw [hqueue] at hstep
      have hdpt : s'.dpt = (s.dpt.handleRecv m).1 ∧ s'.txqueues = s.txqueues ∧
          s'.rxqueues = Function.update s.rxqueues q ms := by
        dsimp only at hstep
        split at hstep <;> obtain rfl := Option.some.inj hstep <;> exact ⟨rfl, rfl, rfl⟩
      obtain ⟨hdpt, htx, hrx⟩ := hdpt
      obtain ⟨hsnoop, hversion⟩ := DptSnoop.handleRecv_snoop_version (s := s.dpt) (m := m)
      refine ⟨by rw [hdpt, hsnoop, h.snoop], fun q' m' hm' => ?_, fun c m' hm' => ?_⟩
      · rw [hdpt, hversion]
        exact h.tx q' m' (by rwa [htx] at hm')
      · rw [hdpt, hversion]
        rw [hrx] at hm'
        by_cases hc : c = q
        · subst hc
          rw [Function.update_self] at hm'
          exact h.rx c m' (by rw [hqueue]; exact List.mem_cons_of_mem m hm')
        · rw [Function.update_of_ne hc] at hm'
          exact h.rx c m' hm'
  | portMod portNo hwaddr config advertise =>
    obtain rfl := Option.some.inj hstep
    refine ⟨?_, fun q m hm => ?_, fun c m hm => ?_⟩
    · exact (DptSnoop.sendPortModMessage_snoop portNo hwaddr config advertise).trans h.snoop
    · dsimp only
      rw [DptSnoop.sendPortModMessage_version]
      exact h.tx q m hm
    · dsimp only
      rw [DptSnoop.sendPortModMessage_version]
      exact h.rx c m hm

/-! ## The simulation -/

theorem toMirror_queues (s : DptSession) (c : QueueId) : s.toMirror.queues c =
    (s.rxqueues c).filterMap DptMsg.update ++
      ((s.txqueues .mgmt).filter fun m => rxqueueOf s.dpt.version m.type = some c).filterMap DptMsg.update :=
  List.filterMap_append

theorem filterMap_update_filter {ms : List DptMsg} {m : DptMsg} {u : Option (Update ℕ Cofport)} (hm : m.update = u)
    (p : DptMsg → Bool) : ((ms ++ [m]).filter p).filterMap DptMsg.update =
      (ms.filter p).filterMap DptMsg.update ++ if p m then u.toList else [] := by
  rw [List.filter_append, List.filterMap_append, List.filter_singleton]
  cases p m with
  | false => simp
  | true =>
    cases u with
    | none => simp [hm]
    | some u => simp [hm]

theorem toMirror_tell {m : DptMsg} (hstep : s.step (.tell m) = some s') :
    s'.toMirror = s.toMirror ∨
      ∃ act, s.toMirror.step .mgmt (DptMsg.wholeQueue s.dpt.version) act = some s'.toMirror := by
  simp only [DptSession.step] at hstep
  split at hstep
  swap
  · cases hstep
  next htells =>
  obtain rfl := Option.some.inj hstep
  cases hupdate : m.update with
  | none =>
    left
    refine Mirror.ext rfl (funext fun c => ?_) rfl rfl rfl
    rw [toMirror_queues, toMirror_queues]
    dsimp only
    by_cases hq : txqueueOf m.version m.type = .mgmt
    · rw [hq, Function.update_self, filterMap_update_filter hupdate]
      simp
    · rw [Function.update_of_ne (Ne.symm hq)]
  | some u =>
    right
    obtain ⟨htx, hrx⟩ := DptMsg.told_txqueue hupdate
    rw [htells.1] at hrx
    have hqueues : ∀ c, (({ s with
        ports := changed s.ports (some u)
        txqueues := Function.update s.txqueues .mgmt (s.txqueues .mgmt ++ [m]) } : DptSession).toMirror.queues) c =
        Function.update s.toMirror.queues (DptMsg.queueOf s.dpt.version u)
          (s.toMirror.queues (DptMsg.queueOf s.dpt.version u) ++ [u]) c := by
      intro c
      rw [toMirror_queues]
      dsimp only
      rw [Function.update_self, filterMap_update_filter hupdate, ← List.append_assoc, ← toMirror_queues, hrx]
      by_cases hc : c = DptMsg.queueOf s.dpt.version u
      · subst hc
        rw [Function.update_self]
        simp
      · rw [Function.update_of_ne hc]
        simp [Ne.symm hc]
    rw [htx]
    cases u with
    | put k v =>
      refine ⟨.put k v, congrArg some (Mirror.ext ?_ (funext fun c => (hqueues c).symm) rfl rfl rfl)⟩
      exact (find?_changed s.ports).symm
    | all f =>
      have hf : f = s.ports.find? := by
        have hports := htells.2.2
        rw [hupdate] at hports
        obtain ⟨-, k, v, heq⟩ | ⟨-, heq, -⟩ | ⟨-, heq, -⟩ := DptMsg.handler_of_update hupdate
        · cases heq
        all_goals rw [Update.all.inj heq, show m.ports.ports = s.ports from hports]
      subst hf
      exact ⟨.all, congrArg some (Mirror.ext rfl (funext fun c => (hqueues c).symm) rfl rfl rfl)⟩

theorem toMirror_receive (h : s.Sorted) {q : QueueId} (hstep : s.step (.receive q) = some s') :
    s'.toMirror = s.toMirror := by
  simp only [DptSession.step] at hstep
  cases hqueue : s.txqueues q with
  | nil =>
    rw [hqueue] at hstep
    cases hstep
  | cons m ms =>
    rw [hqueue] at hstep
    obtain ⟨c, hc, rfl⟩ := Option.map_eq_some_iff.mp hstep
    obtain ⟨hversion, -, htx⟩ := h.tx q m (by rw [hqueue]; exact List.mem_cons_self)
    refine Mirror.ext rfl (funext fun c' => ?_) rfl rfl rfl
    rw [toMirror_queues, toMirror_queues]
    dsimp only
    by_cases hq : q = .mgmt
    · subst hq
      rw [Function.update_self, hqueue, List.filter_cons]
      by_cases hc' : c' = c
      · subst hc'
        rw [Function.update_self, if_pos (by simp [hc]), List.filterMap_append, List.append_assoc]
        cases hupdate : m.update <;> simp [hupdate]
      · rw [Function.update_of_ne hc', if_neg (by simp [hc, Ne.symm hc'])]
    · have hupdate : m.update = none := by
        cases hupdate : m.update with
        | none => rfl
        | some u => exact absurd (htx.symm.trans (DptMsg.told_txqueue hupdate).1) hq
      rw [Function.update_of_ne (Ne.symm hq)]
      by_cases hc' : c' = c
      · subst hc'
        rw [Function.update_self, List.filterMap_append]
        simp [hupdate]
      · rw [Function.update_of_ne hc']

theorem toMirror_handle (h : s.Sorted) {q : QueueId} (hstep : s.step (.handle q) = some s') :
    s'.toMirror = s.toMirror ∨
      ∃ act, s.toMirror.step .mgmt (DptMsg.wholeQueue s.dpt.version) act = some s'.toMirror := by
  simp only [DptSession.step] at hstep
  cases hqueue : s.rxqueues q with
  | nil =>
    rw [hqueue] at hstep
    cases hstep
  | cons m ms =>
    rw [hqueue] at hstep
    obtain ⟨hversion, ⟨c, hclass⟩, hrx⟩ := h.rx q m (by rw [hqueue]; exact List.mem_cons_self)
    have hcopy := DptSnoop.handleRecv_find? h.snoop hversion hclass
    have hdpt := (DptSnoop.handleRecv_snoop_version (s := s.dpt) (m := m)).2
    dsimp only at hstep
    cases hupdate : m.update with
    | none =>
      left
      rw [hupdate] at hstep hcopy
      obtain rfl := Option.some.inj hstep
      refine Mirror.ext rfl (funext fun c => ?_) (funext hcopy) rfl rfl
      rw [toMirror_queues, toMirror_queues]
      dsimp only
      rw [hdpt]
      by_cases hc : c = q
      · subst hc
        rw [Function.update_self, hqueue]
        simp [hupdate]
      · rw [Function.update_of_ne hc]
    | some u =>
      right
      rw [hupdate] at hstep hcopy
      obtain rfl : DptMsg.queueOf m.version u = q :=
        Option.some.inj ((DptMsg.told_txqueue hupdate).2.symm.trans hrx)
      refine ⟨.deliver (DptMsg.queueOf m.version u), ?_⟩
      have hhead : s.toMirror.queues (DptMsg.queueOf m.version u) = u :: (ms.filterMap DptMsg.update ++
          ((s.txqueues .mgmt).filter fun m' => rxqueueOf s.dpt.version m'.type =
            some (DptMsg.queueOf m.version u)).filterMap DptMsg.update) := by
        rw [toMirror_queues, hqueue, List.filterMap_cons, hupdate]
        rfl
      have hqueues : ∀ c, s'.toMirror.queues c = Function.update s.toMirror.queues (DptMsg.queueOf m.version u)
          (ms.filterMap DptMsg.update ++ ((s.txqueues .mgmt).filter fun m' => rxqueueOf s.dpt.version m'.type =
            some (DptMsg.queueOf m.version u)).filterMap DptMsg.update) c := by
        intro c
        have hfields : s'.rxqueues = Function.update s.rxqueues (DptMsg.queueOf m.version u) ms ∧
            s'.txqueues = s.txqueues ∧ s'.dpt.version = s.dpt.version := by
          cases u <;> obtain rfl := Option.some.inj hstep <;> exact ⟨rfl, rfl, hdpt⟩
        rw [toMirror_queues, hfields.1, hfields.2.1, hfields.2.2]
        by_cases hc : c = DptMsg.queueOf m.version u
        · subst hc
          rw [Function.update_self, Function.update_self]
        · rw [Function.update_of_ne hc, Function.update_of_ne hc, toMirror_queues]
      simp only [Mirror.step]
      rw [hhead]
      refine congrArg some (Mirror.ext ?_ (funext fun c => ?_) (funext fun k => ?_) ?_ ?_)
      all_goals cases u
      all_goals obtain rfl := Option.some.inj hstep
      all_goals first
        | rfl
        | exact (hqueues c).symm
        | exact (hcopy k).symm

theorem toMirror_portMod {portNo : ℕ} {hwaddr : BitVec 48} {config advertise : UInt32}
    (hstep : s.step (.portMod portNo hwaddr config advertise) = some s') :
    s'.toMirror = s.toMirror ∨
      ∃ act, s.toMirror.step .mgmt (DptMsg.wholeQueue s.dpt.version) act = some s'.toMirror := by
  obtain rfl := Option.some.inj hstep
  have hversion := DptSnoop.sendPortModMessage_version (s := s.dpt) portNo hwaddr config advertise
  have hqueues : ∀ (basis : ℕ → Basis) (c : QueueId), ({ s with
      dpt := s.dpt.sendPortModMessage portNo hwaddr config advertise
      basis := basis } : DptSession).toMirror.queues c = s.toMirror.queues c := by
    intro basis c
    rw [toMirror_queues, toMirror_queues]
    dsimp only
    rw [hversion]
  by_cases heq : s.dpt.sendPortModMessage portNo hwaddr config advertise = s.dpt
  · left
    rw [if_pos heq, heq]
  · right
    rw [if_neg heq]
    obtain hsame | ⟨v, hv⟩ := DptSnoop.sendPortModMessage_find? (s := s.dpt) portNo hwaddr config advertise
    · exact absurd hsame heq
    · exact ⟨.own portNo v, congrArg some (Mirror.ext rfl (funext fun c => (hqueues _ c).symm)
        (funext fun k => (hv k).symm) rfl rfl)⟩

/-- Each step is one of the copy, or none. -/
theorem toMirror_step (h : s.Sorted) {act : Act} (hstep : s.step act = some s') :
    s'.toMirror = s.toMirror ∨
      ∃ act, s.toMirror.step .mgmt (DptMsg.wholeQueue s.dpt.version) act = some s'.toMirror := by
  cases act with
  | tell m => exact toMirror_tell hstep
  | receive q => exact .inl (toMirror_receive h hstep)
  | handle q => exact toMirror_handle h hstep
  | portMod portNo hwaddr config advertise => exact toMirror_portMod hstep

/-! ## Runs -/

theorem step_version {act : Act} (hstep : s.step act = some s') : s'.dpt.version = s.dpt.version := by
  cases act with
  | tell m =>
    simp only [DptSession.step] at hstep
    split at hstep
    · obtain rfl := Option.some.inj hstep
      rfl
    · cases hstep
  | receive q =>
    simp only [DptSession.step] at hstep
    split at hstep
    · cases hstep
    · obtain ⟨c, -, rfl⟩ := Option.map_eq_some_iff.mp hstep
      rfl
  | handle q =>
    simp only [DptSession.step] at hstep
    split at hstep
    · cases hstep
    · split at hstep <;> obtain rfl := Option.some.inj hstep <;> exact DptSnoop.handleRecv_snoop_version.2
  | portMod portNo hwaddr config advertise =>
    obtain rfl := Option.some.inj hstep
    exact DptSnoop.sendPortModMessage_version portNo hwaddr config advertise

/-- What holds of every session. -/
structure Inv (v : UInt8) (s : DptSession) : Prop where
  sorted : s.Sorted
  version : s.dpt.version = v
  mirror : s.toMirror.Inv .mgmt (DptMsg.wholeQueue v)

theorem inv_new (ports : Omap ℕ Cofport) {dpt : DptSnoop} (hsnoop : dpt.snoop = true) :
    Inv dpt.version (new ports dpt) where
  sorted := ⟨hsnoop, fun _ _ hm => (List.not_mem_nil hm).elim, fun _ _ hm => (List.not_mem_nil hm).elim⟩
  version := rfl
  mirror := Mirror.inv_new ports.find? dpt.ports.ports.find?

theorem Inv.step {v : UInt8} {act : Act} (h : Inv v s) (hstep : s.step act = some s') : Inv v s' := by
  refine ⟨h.sorted.step hstep, (step_version hstep).trans h.version, ?_⟩
  obtain heq | ⟨act', hact'⟩ := toMirror_step h.sorted hstep
  · rw [heq]
    exact h.mirror
  · rw [h.version] at hact'
    exact h.mirror.step hact'

theorem Inv.run {ports : Omap ℕ Cofport} {dpt : DptSnoop} (hsnoop : dpt.snoop = true) {as : List Act}
    (hrun : Runs.run DptSession.step (new ports dpt) as = some s) : Inv dpt.version s :=
  Runs.invariant (fun _ _ _ h hstep => h.step hstep) (inv_new ports hsnoop) hrun

/-- The last word on the port was the datapath's. -/
def Heard (s : DptSession) (k : ℕ) : Prop := s.basis k = .put ∨ s.basis k = .all

/-- Or a word of the datapath is under way. A port that the copy has from
`send_port_mod_message` alone is not meant. -/
def Told (s : DptSession) (k : ℕ) : Prop :=
  s.Heard k ∨ ∃ u ∈ (s.pending .mgmt).filterMap DptMsg.update, u.Concerns k

/-- Nothing is under way. -/
def Drained (s : DptSession) : Prop := ∀ q, s.txqueues q = [] ∧ s.rxqueues q = []

/-- **In 1.0 and 1.2 the copy is only ever behind**: what is under way brings it up to date,
in every state that is reached. -/
theorem mirrors {ports : Omap ℕ Cofport} {dpt : DptSnoop} (hsnoop : dpt.snoop = true)
    (hversion : dpt.version = Openflow10.OFP_VERSION ∨ dpt.version = Openflow12.OFP_VERSION) {as : List Act}
    (hrun : Runs.run DptSession.step (new ports dpt) as = some s) {k : ℕ} (hk : s.Told k) :
    follow k ((s.pending .mgmt).filterMap DptMsg.update) (s.dpt.ports.ports.find? k) = s.ports.find? k := by
  have h := Inv.run hsnoop hrun
  have hqueue : QueueId.mgmt = DptMsg.wholeQueue dpt.version := by
    rcases hversion with heq | heq <;> rw [heq] <;> decide
  rcases hk with (hput | hall) | hpending
  · exact h.mirror.put k hput
  · exact h.mirror.same hqueue k hall
  · exact h.mirror.pending k hpending _

/-- **In any version, a copy that has heard everything is right about a port that it had last
from a PORT_STATUS, and about one that it had last from a message with all ports exactly if
the port is still as it was in that message.** -/
theorem mirrors_iff {ports : Omap ℕ Cofport} {dpt : DptSnoop} (hsnoop : dpt.snoop = true) {as : List Act}
    (hrun : Runs.run DptSession.step (new ports dpt) as = some s) (hdrained : s.Drained) {k : ℕ} (hk : s.Heard k) :
    s.dpt.ports.ports.find? k = s.ports.find? k ↔ (s.basis k = .all → s.shot k = s.ports.find? k) := by
  have h := Inv.run hsnoop hrun
  have hempty : ∀ c, s.toMirror.queues c = [] := by
    intro c
    rw [toMirror_queues, (hdrained c).2, (hdrained .mgmt).1]
    rfl
  exact h.mirror.exact_iff hempty hk

/-! ## Two sessions -/

/-- A message without anything in it, to be filled in. -/
def blank (version type : UInt8) : DptMsg :=
  { version := version, type := type, statsType := 0, dpid := 0, nBuffers := 0, nTables := 0, capabilities := 0,
    flags := 0, missSendLen := 0, ports := .new version, reason := 0, port := ⟨version, 0, 0, [], 0, 0, none⟩,
    tables := .new version, groupFeaturesStats := ⟨version, 0, 0, [], []⟩ }

/-- The constructor, and the version of the channel. -/
def fresh (version : UInt8) : DptSnoop :=
  { snoop := true, version := version, dpid := 0, nBuffers := 0, nTables := 0, capabilities := 0, hwaddr := 0,
    missSendLen := 0, flags := 0, ports := .new 0, tables := .new 0, groups := ⟨0, 0, 0, [], []⟩ }

/-- Port 1, with its state. -/
def port1 (version : UInt8) (state : UInt32) : Cofport := ⟨version, 1, 0, [], 0, state, none⟩

def status (version reason : UInt8) (state : UInt32) : DptMsg :=
  { blank version Openflow10.OFPT_PORT_STATUS with reason := reason, port := port1 version state }

/-- A port is added, and told of twice. -/
theorem mirrors_added : ∃ s, Runs.run DptSession.step (new .empty (fresh Openflow10.OFP_VERSION))
      [.tell (status 1 Openflow.OFPPR_ADD 0), .receive .mgmt, .handle .mgmt, .tell (status 1 Openflow.OFPPR_MODIFY 1)] =
        some s ∧ s.dpt.ports.ports.find? 1 = some (port1 1 0) ∧
      follow 1 ((s.pending .mgmt).filterMap DptMsg.update) (s.dpt.ports.ports.find? 1) = s.ports.find? 1 := by
  obtain ⟨s, hrun, hcopy, hbasis⟩ : ∃ s, Runs.run DptSession.step (new .empty (fresh Openflow10.OFP_VERSION))
      [.tell (status 1 Openflow.OFPPR_ADD 0), .receive .mgmt, .handle .mgmt, .tell (status 1 Openflow.OFPPR_MODIFY 1)] =
        some s ∧ s.dpt.ports.ports.find? 1 = some (port1 1 0) ∧ s.basis 1 = .put :=
    ⟨_, rfl, by decide, by decide⟩
  exact ⟨s, hrun, hcopy, mirrors rfl (.inl rfl) hrun (.inl (.inl hbasis))⟩

/-- A description of 1.3, with the port as it was. -/
def description (state : UInt32) : DptMsg :=
  { blank Openflow13.OFP_VERSION Openflow13.OFPT_MULTIPART_REPLY with
    statsType := Openflow13.OFPMP_PORT_DESC
    ports := ⟨Openflow13.OFP_VERSION, Omap.empty.insert 1 (port1 Openflow13.OFP_VERSION state)⟩ }

/-- The port changes after it was described, and the handler gets both messages at once: it
begins with the PORT_STATUS, and what it has learned from it is lost. -/
theorem stale : ∃ s, Runs.run DptSession.step (new .empty (fresh Openflow13.OFP_VERSION))
      [.tell (status 4 Openflow.OFPPR_ADD 0), .receive .mgmt, .handle .mgmt, .tell (description 0),
       .tell (status 4 Openflow.OFPPR_MODIFY 1), .receive .mgmt, .receive .mgmt, .handle .mgmt, .handle .flow] = some s ∧
      s.Drained ∧ s.dpt.ports.ports.find? 1 ≠ s.ports.find? 1 := by
  obtain ⟨s, hrun, htx, hrx, hbasis, hshot⟩ : ∃ s,
      Runs.run DptSession.step (new .empty (fresh Openflow13.OFP_VERSION))
        [.tell (status 4 Openflow.OFPPR_ADD 0), .receive .mgmt, .handle .mgmt, .tell (description 0),
         .tell (status 4 Openflow.OFPPR_MODIFY 1), .receive .mgmt, .receive .mgmt, .handle .mgmt, .handle .flow] =
          some s ∧ (∀ q ∈ QueueId.all, s.txqueues q = []) ∧ (∀ q ∈ QueueId.all, s.rxqueues q = []) ∧
        s.basis 1 = .all ∧ s.shot 1 ≠ s.ports.find? 1 :=
    ⟨_, rfl, by decide, by decide, by decide, by decide⟩
  have hdrained : s.Drained := fun q => ⟨htx q (QueueId.mem_all q), hrx q (QueueId.mem_all q)⟩
  refine ⟨s, hrun, hdrained, fun heq => hshot ?_⟩
  exact (mirrors_iff rfl hrun hdrained (.inr hbasis)).mp heq hbasis

end DptSession

end RoflCommon
