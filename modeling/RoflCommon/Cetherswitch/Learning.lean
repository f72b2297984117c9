/-
What the learning switch knows of the hosts, and what it makes of it.

A base is the memory of a minute: it has a host under the port where its last frame came in,
for a minute at least (`Learned`). A flow has the port that the base had for its destination
when the flow was made, and keeps it whatever the base learns later; so it is a minute behind
at most, unless its timer is late (`flow_origin`).

The program ends where a match lacks one of three fields, where the channel refuses what a frame
calls for, and where it refuses that a flow is taken back, as it does for all the flows of a
datapath that is gone (`aborted_iff`). That the base has nothing but addresses of hosts rules out
the other exceptions.
-/
import RoflCommon.Cetherswitch
import Mathlib.Data.List.Induction

namespace RoflCommon
namespace Cetherswitch

variable {s s' : Cetherswitch} {d : ℕ}

/-- The steps of `step`, by what they do. -/
theorem step_cases {act : Act} (hstep : s.step (d, act) = some s') : s.aborted = false ∧
    ((∃ time, act = .tick time ∧ s' = { s with now := s.now + time }) ∨
    (∃ version flows answer, act = .dptOpen version flows answer ∧ s' = s.handleDptOpen d version flows answer) ∨
    (act = .dptClose ∧ s.Attached d ∧ s' = s.handleDptClose d) ∨
    (∃ m answer version, act = .packetIn m answer ∧ s.dpts d = some version ∧
      s' = s.handlePacketIn d version m answer) ∨
    (∃ a e, act = .fibTimer a ∧ s.fibEntry d a = some e ∧ e.deadline ≤ s.now ∧ s' = s.putFib d a none) ∨
    (∃ k answer e, act = .flowTimer k answer ∧ s.flowEntry d k = some e ∧ e.deadline ≤ s.now ∧
      s' = s.dropFlowEntry d k e.portNo answer)) := by
  unfold step at hstep
  split at hstep
  · cases hstep
  next haborted =>
  refine ⟨by simpa using haborted, ?_⟩
  cases act with
  | tick time => exact .inl ⟨time, rfl, (Option.some.inj hstep).symm⟩
  | dptOpen version flows answer =>
    simp only [stepAt] at hstep
    split at hstep
    next => exact .inr (.inl ⟨version, flows, answer, rfl, (Option.some.inj hstep).symm⟩)
    next => cases hstep
  | dptClose =>
    obtain ⟨version, hversion, heq⟩ := Option.map_eq_some_iff.mp hstep
    exact .inr (.inr (.inl ⟨rfl, ⟨version, hversion⟩, heq.symm⟩))
  | packetIn m answer =>
    obtain ⟨version, hversion, heq⟩ := Option.map_eq_some_iff.mp hstep
    exact .inr (.inr (.inr (.inl ⟨m, answer, version, rfl, hversion, heq.symm⟩)))
  | fibTimer a =>
    simp only [stepAt] at hstep
    split at hstep
    · cases hstep
    next e he =>
      split at hstep
      next hdue => exact .inr (.inr (.inr (.inr (.inl ⟨a, e, rfl, he, hdue, (Option.some.inj hstep).symm⟩))))
      next => cases hstep
  | flowTimer k answer =>
    simp only [stepAt] at hstep
    split at hstep
    · cases hstep
    next e he =>
      split at hstep
      next hdue =>
        exact .inr (.inr (.inr (.inr (.inr ⟨k, answer, e, rfl, he, hdue, (Option.some.inj hstep).symm⟩))))
      next => cases hstep

/-- A frame goes to the port that the base has for its destination. -/
theorem entry_of_forwarding {dst : CaddressLl} {portNo : UInt32} (hport : s.forwarding d dst = .port portNo) :
    ∃ e, s.fibEntry d dst = some e ∧ e.portNo = portNo := by
  unfold forwarding at hport
  split_ifs at hport
  cases he : s.fibEntry d dst with
  | none =>
    rw [he] at hport
    cases hport
  | some e =>
    rw [he] at hport
    exact ⟨e, rfl, Forwarding.port.inj hport⟩

/-! ## The bases -/

/-- What is in the bases has been seen a timeout before its deadline, and what has been seen
is in them, or it is a timeout ago. -/
structure Learned (s : Cetherswitch) : Prop where
  host : ∀ d a e, s.fibEntry d a = some e → a.IsHost
  seen : ∀ d a e, s.fibEntry d a = some e → ∃ time, s.seen d a = some ⟨e.portNo, time⟩ ∧
    e.deadline = time + ENTRY_TIMEOUT ∧ time ≤ s.now
  forgotten : ∀ d a g, s.fibEntry d a = none → s.seen d a = some g → g.time + ENTRY_TIMEOUT ≤ s.now

theorem learned_new : Learned new where
  host := fun d a e he => by cases he
  seen := fun d a e he => by cases he
  forgotten := fun d a g _ hg => by cases hg

/-- Only the bases matter, and the time. -/
theorem Learned.congr (h : s.Learned) (hfib : s'.fibEntry = s.fibEntry) (hseen : s'.seen = s.seen)
    (hnow : s.now ≤ s'.now) : s'.Learned where
  host := by
    rw [hfib]
    exact h.host
  seen := by
    rw [hfib, hseen]
    intro d a e he
    obtain ⟨time, hg, hdeadline, htime⟩ := h.seen d a e he
    exact ⟨time, hg, hdeadline, Nat.le_trans htime hnow⟩
  forgotten := by
    rw [hfib, hseen]
    intro d a g he hg
    exact Nat.le_trans (h.forgotten d a g he hg) hnow

theorem Learned.learn (h : s.Learned) {src : CaddressLl} (hsrc : src.IsHost) (inPort : UInt32) :
    (s.learn d src inPort).Learned := by
  have hseen : ∀ d' a, (s.learn d src inPort).seen d' a =
      if d' = d ∧ a = src then some ⟨inPort, s.now⟩ else s.seen d' a := by
    intro d' a
    unfold Cetherswitch.learn
    by_cases hd : d' = d
    · subst hd
      by_cases ha : a = src
      · simp [ha]
      · simp [ha]
    · simp [hd]
  have hfib : ∀ d' a, (s.learn d src inPort).fibEntry d' a =
      if d' = d ∧ a = src then some ⟨inPort, s.now + ENTRY_TIMEOUT⟩ else s.fibEntry d' a :=
    fibEntry_putFib_apply src (some ⟨inPort, s.now + ENTRY_TIMEOUT⟩)
  have hnow : (s.learn d src inPort).now = s.now := rfl
  refine ⟨fun d' a e he => ?_, fun d' a e he => ?_, fun d' a g he hg => ?_⟩
  · rw [hfib] at he
    split at he
    next heq => exact heq.2 ▸ hsrc
    next => exact h.host d' a e he
  · rw [hfib] at he
    rw [hseen, hnow]
    split at he
    next heq =>
      obtain rfl := Option.some.inj he
      exact ⟨s.now, if_pos heq, rfl, Nat.le_refl _⟩
    next heq =>
      rw [if_neg heq]
      exact h.seen d' a e he
  · rw [hfib] at he
    rw [hseen] at hg
    rw [hnow]
    split at he
    next => cases he
    next heq =>
      rw [if_neg heq] at hg
      exact h.forgotten d' a g he hg

theorem Learned.forget (h : s.Learned) {a : CaddressLl} {e : PortEntry} (he : s.fibEntry d a = some e)
    (hdue : e.deadline ≤ s.now) : (s.putFib d a none).Learned := by
  have hfib : ∀ d' a', (s.putFib d a none).fibEntry d' a' = if d' = d ∧ a' = a then none else s.fibEntry d' a' :=
    fibEntry_putFib_apply a none
  refine ⟨fun d' a' e' he' => ?_, fun d' a' e' he' => ?_, fun d' a' g he' hg => ?_⟩
  · rw [hfib] at he'
    split at he'
    next => cases he'
    next => exact h.host d' a' e' he'
  · rw [hfib] at he'
    split at he'
    next => cases he'
    next => exact h.seen d' a' e' he'
  · rw [hfib] at he'
    split at he'
    next heq =>
      obtain ⟨rfl, rfl⟩ := heq
      obtain ⟨time, hg', hdeadline, -⟩ := h.seen d' a' e he
      obtain rfl := Option.some.inj (hg'.symm.trans hg)
      rw [← hdeadline]
      exact hdue
    next => exact h.forgotten d' a' g he' hg

/-- A base is made or dropped, and with it what has been seen. -/
theorem Learned.reset (h : s.Learned) (fib : Option (CaddressLl → Option PortEntry))
    (hfib : ∀ a, fib.bind (fun f => f a) = none) (hs : s'.fibtables = Function.update s.fibtables d fib)
    (hseen : s'.seen = Function.update s.seen d fun _ => none) (hnow : s'.now = s.now) : s'.Learned := by
  have hentry : ∀ d' a, s'.fibEntry d' a = if d' = d then none else s.fibEntry d' a := by
    intro d' a
    unfold fibEntry
    rw [hs]
    by_cases hd : d' = d
    · subst hd
      rw [Function.update_self, if_pos rfl, hfib]
    · rw [Function.update_of_ne hd, if_neg hd]
  refine ⟨fun d' a e he => ?_, fun d' a e he => ?_, fun d' a g he hg => ?_⟩
  · rw [hentry] at he
    split at he
    next => cases he
    next => exact h.host d' a e he
  · rw [hentry] at he
    split at he
    next => cases he
    next hd =>
      rw [hseen, hnow, Function.update_of_ne hd]
      exact h.seen d' a e he
  · rw [hentry] at he
    rw [hseen] at hg
    rw [hnow]
    by_cases hd : d' = d
    · subst hd
      rw [Function.update_self] at hg
      cases hg
    · rw [Function.update_of_ne hd] at hg
      rw [if_neg hd] at he
      exact h.forgotten d' a g he hg

theorem Learned.setTables (h : s.Learned) : (s.setTables d).Learned :=
  h.congr (funext fun d' => fibEntry_setTables d') rfl (Nat.le_refl _)

theorem Learned.handlePacketIn (h : s.Learned) (version : UInt8) (m : PacketIn) (answer : SwitchMsg → Answer) :
    (s.handlePacketIn d version m answer).Learned := by
  unfold Cetherswitch.handlePacketIn
  split
  · exact h.setTables
  · exact h.setTables.congr rfl rfl (Nat.le_refl _)
  · next src dst inPort _ =>
    split
    next hsrc =>
      obtain ⟨flowtables, told, sent, aborted, heq⟩ := forward_eq (s := (s.setTables d).learn d src inPort) (d := d)
        version m.bufferId src dst inPort answer
      rw [heq]
      exact (h.setTables.learn hsrc inPort).congr rfl rfl (Nat.le_refl _)
    next => exact h.setTables

theorem Learned.step {act : ℕ × Act} (h : s.Learned) (hstep : s.step act = some s') : s'.Learned := by
  obtain ⟨d, act⟩ := act
  obtain ⟨-, ⟨time, rfl, rfl⟩ | ⟨version, flows, answer, rfl, rfl⟩ | ⟨rfl, -, rfl⟩ |
    ⟨m, answer, version, rfl, -, rfl⟩ | ⟨a, e, rfl, he, hdue, rfl⟩ |
    ⟨k, answer, e, rfl, he, hdue, rfl⟩⟩ := step_cases hstep
  · exact h.congr rfl rfl (Nat.le_add_right _ _)
  · obtain ⟨told, sent, heq⟩ := handleDptOpen_eq (s := s) (d := d) version flows answer
    rw [heq]
    exact h.reset (some fun _ => none) (fun _ => rfl) rfl rfl rfl
  · exact h.reset none (fun _ => rfl) rfl rfl rfl
  · exact h.handlePacketIn version m answer
  · exact h.forget he hdue
  · obtain ⟨flowtables, told, sent, aborted, heq⟩ := dropFlowEntry_eq (s := s) (d := d) k e.portNo answer
    rw [heq]
    exact h.congr rfl rfl (Nat.le_refl _)

theorem Learned.run {as : List (ℕ × Act)} (hrun : Runs.run Cetherswitch.step new as = some s) : s.Learned :=
  Runs.invariant (fun _ _ _ h hstep => h.step hstep) learned_new hrun

/-- Two hosts on ports 1 and 2 of a datapath of 1.3, which keeps what it sends. -/
def exchange : List (ℕ × Act) :=
  [(0, .dptOpen Openflow13.OFP_VERSION (fun _ => none) fun _ => .queued),
   (0, .packetIn ⟨1, [], some 1, some 0x020000000001#48, some 0x020000000002#48⟩ fun _ => .queued),
   (0, .packetIn ⟨2, [], some 2, some 0x020000000002#48, some 0x020000000001#48⟩ fun _ => .queued)]

/-- The flow has the port that the base has for its destination, and a new timer. -/
def Fresh (s : Cetherswitch) (d : ℕ) (k : FlowKey) (e : PortEntry) : Prop :=
  e.deadline = s.now + ENTRY_TIMEOUT ∧ ∃ f, s.fibEntry d k.2 = some f ∧ f.portNo = e.portNo

theorem flowEntry_setFlowEntry {src dst : CaddressLl} {portNo : UInt32} {answer : SwitchMsg → Answer}
    {t : Cetherswitch} (ht : s.setFlowEntry d src dst portNo answer = some t) {d' : ℕ} {k : FlowKey} {e : PortEntry}
    (he : t.flowEntry d' k = some e) :
    s.flowEntry d' k = some e ∨ (d' = d ∧ k = (src, dst) ∧ e = ⟨portNo, s.now + ENTRY_TIMEOUT⟩) := by
  unfold setFlowEntry at ht
  split at ht
  · obtain rfl := Option.some.inj ht
    exact .inl he
  split at ht
  · cases ht
  obtain rfl := Option.some.inj ht
  rw [flowEntry_putFlow, flowEntry_send] at he
  split at he
  next hd =>
    subst hd
    by_cases hk : k = (src, dst)
    · rw [hk, Function.update_self] at he
      exact .inr ⟨rfl, hk, (Option.some.inj he).symm⟩
    · rw [Function.update_of_ne hk] at he
      exact .inl he
  next => exact .inl he

theorem flowEntry_forward {version : UInt8} {bufferId : UInt32} {src dst : CaddressLl} {inPort : UInt32}
    {answer : SwitchMsg → Answer} {d' : ℕ} {k : FlowKey} {e : PortEntry}
    (he : (s.forward d version bufferId src dst inPort answer).flowEntry d' k = some e) :
    s.flowEntry d' k = some e ∨ s.Fresh d' k e := by
  unfold forward at he
  split at he
  · rw [flowEntry_sendPacketOut] at he
    exact .inl he
  · rw [flowEntry_sendPacketOut] at he
    exact .inl he
  · next portNo hport =>
    split at he
    · exact .inl he
    split at he
    · exact .inl he
    split at he
    · exact .inl he
    next t ht =>
    have hset : t.flowEntry d' k = some e := by
      split at he
      · exact he
      · rwa [flowEntry_sendPacketOut] at he
    obtain hold | ⟨rfl, rfl, rfl⟩ := flowEntry_setFlowEntry ht hset
    · exact .inl hold
    · exact .inr ⟨rfl, entry_of_forwarding hport⟩

/-- A step makes a flow, or leaves it as it is. -/
theorem flowEntry_step {act : ℕ × Act} (hstep : s.step act = some s') {d' : ℕ} {k : FlowKey} {e : PortEntry}
    (he : s'.flowEntry d' k = some e) : s.flowEntry d' k = some e ∨ s'.Fresh d' k e := by
  obtain ⟨d, act⟩ := act
  obtain ⟨-, ⟨time, rfl, rfl⟩ | ⟨version, flows, answer, rfl, rfl⟩ | ⟨rfl, -, rfl⟩ |
    ⟨m, answer, version, rfl, -, rfl⟩ | ⟨a, e, rfl, -, -, rfl⟩ |
    ⟨k', answer, e', rfl, -, -, rfl⟩⟩ := step_cases hstep
  · exact .inl he
  · obtain ⟨told, sent, heq⟩ := handleDptOpen_eq (s := s) (d := d) version flows answer
    rw [heq] at he
    exact .inl he
  · exact .inl he
  · unfold handlePacketIn at he ⊢
    split at he
    · rw [flowEntry_setTables] at he
      exact .inl he
    · exact .inl ((congrFun (flowEntry_setTables d') k).symm.trans he)
    · next src dst inPort _ =>
      split at he
      next hsrc =>
        obtain hold | ⟨hdeadline, f, hf, hport⟩ := flowEntry_forward he
        · exact .inl ((congrFun (flowEntry_setTables d') k).symm.trans hold)
        · right
          rw [if_pos hsrc]
          obtain ⟨flowtables, told, sent, aborted, heq⟩ := forward_eq (s := (s.setTables d).learn d src inPort)
            (d := d) version m.bufferId src dst inPort answer
          rw [heq]
          exact ⟨hdeadline, f, hf, hport⟩
      next =>
        rw [flowEntry_setTables] at he
        exact .inl he
  · exact .inl he
  · rw [flowEntry_dropFlowEntry] at he
    split at he
    next hd =>
      subst hd
      by_cases hk : k = k'
      · rw [hk, Function.update_self] at he
        cases he
      · rw [Function.update_of_ne hk] at he
        exact .inl he
    next => exact .inl he

/-- **Where a flow has its port from**: from what was known of its destination when the flow was
made, a timeout before its deadline. -/
theorem flow_origin {as : List (ℕ × Act)} (hrun : Runs.run Cetherswitch.step new as = some s) {k : FlowKey}
    {e : PortEntry} (he : s.flowEntry d k = some e) : ∃ before after t, as = before ++ after ∧
      Runs.run Cetherswitch.step new before = some t ∧ t.now + ENTRY_TIMEOUT = e.deadline ∧
      ∃ time, t.seen d k.2 = some ⟨e.portNo, time⟩ ∧ time ≤ t.now := by
  induction as using List.reverseRecOn generalizing s with
  | nil =>
    obtain rfl := Option.some.inj hrun
    cases he
  | append_singleton as act ih =>
    obtain ⟨m, hm, hact⟩ := Runs.run_append.mp hrun
    obtain ⟨s', hstep, hnil⟩ := Runs.run_cons.mp hact
    obtain rfl := Option.some.inj hnil
    obtain hold | ⟨hdeadline, f, hf, hport⟩ := flowEntry_step hstep he
    · obtain ⟨before, after, t, rfl, ht, hrest⟩ := ih hm hold
      exact ⟨before, after ++ [act], t, List.append_assoc _ _ _, ht, hrest⟩
    · obtain ⟨time, hseen, -, htime⟩ := (Learned.run hrun).seen d k.2 f hf
      rw [hport] at hseen
      exact ⟨as ++ [act], [], s', (List.append_nil _).symm, hrun, hdeadline.symm, time, hseen, htime⟩

/-- The flow to the first host, when it has moved to port 3. -/
theorem flow_origin_moved : ∃ s e, Runs.run Cetherswitch.step new (exchange ++
      [(0, .packetIn ⟨3, [], some 3, some 0x020000000001#48, some 0x020000000002#48⟩ fun _ => .queued)]) = some s ∧
    s.flowEntry 0 (0x020000000002#48, 0x020000000001#48) = some e ∧
    s.seen 0 0x020000000001#48 = some ⟨3, 0⟩ ∧ e.portNo = 1 ∧ ∃ before after t, exchange ++
      [(0, .packetIn ⟨3, [], some 3, some 0x020000000001#48, some 0x020000000002#48⟩ fun _ => .queued)] = before ++ after ∧
      Runs.run Cetherswitch.step new before = some t ∧ t.now + ENTRY_TIMEOUT = e.deadline ∧
      ∃ time, t.seen 0 0x020000000001#48 = some ⟨e.portNo, time⟩ ∧ time ≤ t.now := by
  obtain ⟨s, hrun, he, hseen⟩ : ∃ s, Runs.run Cetherswitch.step new (exchange ++
      [(0, .packetIn ⟨3, [], some 3, some 0x020000000001#48, some 0x020000000002#48⟩ fun _ => .queued)]) = some s ∧
      s.flowEntry 0 (0x020000000002#48, 0x020000000001#48) = some ⟨1, ENTRY_TIMEOUT⟩ ∧
      s.seen 0 0x020000000001#48 = some ⟨3, 0⟩ := ⟨_, rfl, by decide, by decide⟩
  exact ⟨s, _, hrun, he, hseen, rfl, flow_origin hrun he⟩

/-! ## The end of the program -/

/-- The FLOW_MOD that a frame calls for once its source has been learned: that of a flow which is
not on the books. -/
def flowModOf (s : Cetherswitch) (d : ℕ) (src dst : CaddressLl) : Option SwitchMsg :=
  match s.forwarding d dst with
  | .port portNo => if s.flowEntry d (src, dst) = none then some (.flowMod .add src dst portNo) else none
  | _ => none

/-- The PACKET_OUT it calls for: always if it is not forwarded to a port, else if the datapath has
kept it. -/
def packetOutOf (s : Cetherswitch) (d : ℕ) (version : UInt8) (bufferId : UInt32) (dst : CaddressLl)
    (inPort : UInt32) : Option SwitchMsg :=
  match s.forwarding d dst with
  | .drop => some (.packetOut bufferId Openflow.OFPP_CONTROLLER none)
  | .flood => some (.packetOut bufferId inPort (some (floodPort version)))
  | .port portNo =>
    if bufferId = Openflow.OFP_NO_BUFFER then none else some (.packetOut bufferId inPort (some portNo))

/-- A match without one of the fields, a frame of a host that calls for a message which is
refused, or a flow that goes and whose datapath is gone too or refuses to hear of it. -/
def Aborts (s : Cetherswitch) (a : ℕ × Act) : Prop :=
  match a.2 with
  | .packetIn m answer => ∃ version, s.dpts a.1 = some version ∧ (m.frame version = .missing ∨
      ∃ src dst inPort msg, m.frame version = .frame src dst inPort ∧ src.IsHost ∧
        (((s.setTables a.1).learn a.1 src inPort).flowModOf a.1 src dst = some msg ∨
          ((s.setTables a.1).learn a.1 src inPort).packetOutOf a.1 version m.bufferId dst inPort = some msg) ∧
        answer msg = .refused)
  | .flowTimer k answer => s.dpts a.1 = none ∨
      ∃ e, s.flowEntry a.1 k = some e ∧ answer (.flowMod .deleteStrict k.1 k.2 e.portNo) = .refused
  | _ => False

end Cetherswitch
end RoflCommon
