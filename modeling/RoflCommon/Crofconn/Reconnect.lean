/-
What one connection object remembers of its peers, over any number of
connections.

`versionbitmap_peer` lives as long as the object. Every `clear()` of the
state machine leaves its versions in place, so a HELLO that offers its header
version alone adds to what earlier peers offered (`peer_after_run`). The
set is the last HELLO's offer exactly as long as no such HELLO meets a
version of an earlier one (`offer_exact_iff`).
-/
import RoflCommon.Crofconn.Fsm
import RoflCommon.Lib.Runs

namespace RoflCommon
namespace Reconnect

open Crofconn

/-- The versions an application configures are octets, as the argument of
`add_ofp_version` is. -/
abbrev OwnVersions := { b : Versionbitmap // b.Octets }

/-- What happens to a connection object. -/
inductive Event
  | tcpConnect (own : OwnVersions) (mode : Mode)
  | tcpAccept (own : OwnVersions) (mode : Mode)
  /-- Whatever else moves the state machine: the socket's notifications, the
  timers, `close()`, the other messages received. -/
  | fsm (s : ConnState)
  | hello (m : CofmsgHello)

/-- The object after an event. An exception of `set_versionbitmap` goes to
the caller and leaves the object as it was. -/
def step (c : Crofconn) : Event → Option Crofconn
  | .tcpConnect own mode => some (((c.tcpConnect own mode).map Prod.fst).getD c)
  | .tcpAccept own mode => some (((c.tcpAccept own mode).map Prod.fst).getD c)
  | .fsm s => some (runFiniteStateMachine s c).1
  | .hello m => if HandlesHello c.state then some (helloRcvd m c).1 else none

/-- The peer's versions are those the HELLO offers, and the version chosen,
if any, is one of them. -/
structure OfferExact (m : CofmsgHello) (c : Crofconn) : Prop where
  peer : ∀ v, c.versionbitmapPeer.test v = m.offers v
  chosen : c.ofpVersion = Openflow.OFP_VERSION_UNKNOWN ∨ m.offers c.ofpVersion.toNat = true

/-- A HELLO that offers its header version alone finds no other version in
`versionbitmap_peer`. -/
def FindsNoOther (m : CofmsgHello) (c : Crofconn) : Prop :=
  m.headerOnly = true → ∀ v, c.versionbitmapPeer.test v = true → v = m.version.toNat

/-! ## One event -/

theorem openWith_keeps {pending : ConnState} {rofsock : Effect} {own : Versionbitmap} {mode : Mode}
    {c : Crofconn} {r : Crofconn × List Effect} (h : openWith pending rofsock own mode c = some r) :
    r.1.versionbitmap = own ∧ ∀ v, r.1.versionbitmapPeer.test v = c.versionbitmapPeer.test v := by
  obtain ⟨d, hd, rfl⟩ := Option.map_eq_some_iff.mp h
  have hk := runFiniteStateMachine_keeps pending { d with mode := mode }
  unfold setVersionbitmap at hd
  split at hd
  · cases hd
  · obtain rfl := Option.some.inj hd
    exact ⟨hk.own, hk.peer⟩

/-- What an opening call, successful or not, keeps. -/
theorem opened_keeps {pending : ConnState} {rofsock : Effect} {own : OwnVersions} {mode : Mode}
    {c : Crofconn} (h : c.versionbitmap.Octets) :
    let c' := ((openWith pending rofsock own.1 mode c).map Prod.fst).getD c
    c'.versionbitmap.Octets ∧ ∀ v, c'.versionbitmapPeer.test v = c.versionbitmapPeer.test v := by
  cases hr : openWith pending rofsock own.1 mode c with
  | none => exact ⟨h, fun _ => rfl⟩
  | some r =>
    obtain ⟨hown, hpeer⟩ := openWith_keeps hr
    simp only [Option.map_some, Option.getD_some, hown]
    exact ⟨own.2, hpeer⟩

theorem atSelection_own (c : Crofconn) (m : CofmsgHello) :
    (c.atSelection m).versionbitmap = c.versionbitmap :=
  (sendHelloMessage_keeps c).own

theorem octets_step {c c' : Crofconn} {e : Event} (h : c.versionbitmap.Octets)
    (hstep : step c e = some c') : c'.versionbitmap.Octets := by
  cases e with
  | tcpConnect own mode => obtain rfl := Option.some.inj hstep; exact (opened_keeps h).1
  | tcpAccept own mode => obtain rfl := Option.some.inj hstep; exact (opened_keeps h).1
  | fsm s =>
    obtain rfl := Option.some.inj hstep
    rwa [(runFiniteStateMachine_keeps s c).own]
  | hello m =>
    simp only [step] at hstep
    split at hstep
    · obtain rfl := Option.some.inj hstep
      rwa [(helloRcvd_keeps m c).own, atSelection_own]
    · cases hstep

/-- The versions the object holds after an event: a HELLO's offer and, if the
offer is the header version alone, what was there. -/
def remembers (stale : Nat → Bool) : Event → Nat → Bool
  | .hello m, v => m.offers v || (m.headerOnly && stale v)
  | _, v => stale v

theorem peer_step {c c' : Crofconn} {e : Event} (h : c.versionbitmap.Octets)
    (hstep : step c e = some c') (v : Nat) :
    c'.versionbitmapPeer.test v = remembers c.versionbitmapPeer.test e v := by
  cases e with
  | tcpConnect own mode => obtain rfl := Option.some.inj hstep; exact (opened_keeps h).2 v
  | tcpAccept own mode => obtain rfl := Option.some.inj hstep; exact (opened_keeps h).2 v
  | fsm s => obtain rfl := Option.some.inj hstep; exact (runFiniteStateMachine_keeps s c).peer v
  | hello m =>
    simp only [step] at hstep
    split at hstep
    · obtain rfl := Option.some.inj hstep
      rw [(helloRcvd_keeps m c).peer]
      exact test_peerVersions c.versionbitmapPeer m v
    · cases hstep

theorem atSelection_state (c : Crofconn) (m : CofmsgHello) : (c.atSelection m).state = c.state := by
  unfold atSelection sendHelloMessage
  split <;> rfl

/-- The version chosen is unknown or one of the peer's versions. -/
theorem helloRcvd_chosen {c : Crofconn} (hs : HandlesHello c.state) (h : c.versionbitmap.Octets)
    (m : CofmsgHello) : (helloRcvd m c).1.ofpVersion = Openflow.OFP_VERSION_UNKNOWN ∨
      (helloRcvd m c).1.versionbitmapPeer.test (helloRcvd m c).1.ofpVersion.toNat = true := by
  have hoct := Versionbitmap.Octets.and (a := (c.atSelection m).versionbitmap) (by rwa [atSelection_own])
    (c.atSelection m).versionbitmapPeer
  rw [← atSelection_state c m] at hs
  rw [(helloRcvd_keeps m c).peer, helloRcvd_eq]
  generalize c.atSelection m = d at *
  unfold selectVersion
  dsimp only
  split
  · left
    have hne : d.state ≠ .negotiationFailed := by rcases hs with h | h | h <;> simp [h]
    simp [helloIncompatible, seq, effect, runFiniteStateMachine_of_ne hne, execAll_ofpVersion, caseOps,
      closingOps, disconnectedOps]
  · next hsome =>
    rcases moveOn_ofpVersion
      { d with ofpVersion := (d.versionbitmap.and d.versionbitmapPeer).getHighestOfpVersion } with hk | hk
    · right
      have hmem := Versionbitmap.test_getHighestOfpVersion hoct hsome
      simp only [Versionbitmap.test_and, Bool.and_eq_true] at hmem
      rw [hk]
      exact hmem.2
    · exact .inl hk

/-- One HELLO leaves its offer behind exactly if it finds no other version. -/
theorem offerExact_iff {c c' : Crofconn} {m : CofmsgHello} (h : c.versionbitmap.Octets)
    (hstep : step c (.hello m) = some c') : OfferExact m c' ↔ FindsNoOther m c := by
  have hpeer := peer_step h hstep
  have hchosen : c'.ofpVersion = Openflow.OFP_VERSION_UNKNOWN ∨
      c'.versionbitmapPeer.test c'.ofpVersion.toNat = true := by
    simp only [step] at hstep
    split at hstep
    · next hs =>
      obtain rfl := Option.some.inj hstep
      exact helloRcvd_chosen hs h m
    · cases hstep
  simp only [remembers] at hpeer
  constructor
  · intro hexact honly v hv
    have hv' := hexact.peer v
    rw [hpeer v, honly, hv, Bool.and_self, Bool.or_true] at hv'
    exact m.eq_of_offers honly hv'.symm
  · intro hfinds
    have hset : ∀ v, c'.versionbitmapPeer.test v = m.offers v := fun v => by
      rw [hpeer v]
      by_cases hstale : (m.headerOnly && c.versionbitmapPeer.test v) = true
      · simp only [Bool.and_eq_true] at hstale
        rw [hfinds hstale.1 v hstale.2, m.offers_version hstale.1, Bool.true_or]
      · simp only [Bool.not_eq_true] at hstale
        rw [hstale, Bool.or_false]
    exact ⟨hset, by simpa only [hset] using hchosen⟩

/-! ## Runs -/

/-- **What the object remembers** after any events: the versions it started
with, through all of them. -/
theorem peer_after_run {c c' : Crofconn} {es : List Event} (h : c.versionbitmap.Octets)
    (hrun : Runs.run step c es = some c') (v : Nat) :
    c'.versionbitmapPeer.test v = es.foldl remembers c.versionbitmapPeer.test v := by
  induction es generalizing c with
  | nil =>
    obtain rfl : c = c' := by simpa using hrun
    rfl
  | cons e es ih =>
    obtain ⟨m, hm, ht⟩ := Runs.run_cons.mp hrun
    rw [ih (octets_step h hm) ht, List.foldl_cons, show m.versionbitmapPeer.test = remembers _ e from
      funext (peer_step h hm)]

/-- **No version survives a reconnect**, at every HELLO of a run of one
connection object from its construction, if and only if no HELLO that offers
its header version alone finds another version left by an earlier one. -/
theorem offer_exact_iff {xidHello xidFeaturesRequest : UInt32} {c' : Crofconn} {es : List Event}
    (hrun : Runs.run step (new xidHello xidFeaturesRequest) es = some c') :
    Runs.Along step (fun _ e c' => ∀ m, e = .hello m → OfferExact m c') (new xidHello xidFeaturesRequest) es ↔
      Runs.Meets step (fun c e => ∀ m, e = .hello m → FindsNoOther m c) (new xidHello xidFeaturesRequest) es := by
  refine Runs.along_iff_meets (I := fun c => c.versionbitmap.Octets) (fun c e c' h => octets_step h) ?_
    (fun v hv => ?_) hrun
  · intro c e c' h hstep
    constructor
    · rintro hexact m rfl
      exact (offerExact_iff h hstep).mp (hexact m rfl)
    · rintro hfinds m rfl
      exact (offerExact_iff h hstep).mpr (hfinds m rfl)
  · simp [new] at hv

/-- Versions 1.0 and 1.2. -/
def lowVersions : OwnVersions :=
  ⟨(Versionbitmap.new.addOfpVersion Openflow10.OFP_VERSION).addOfpVersion Openflow12.OFP_VERSION,
    .addOfpVersion (.addOfpVersion (fun v hv => by simp at hv) _) _⟩

/-- A peer with 1.2 alone, and behind a reconnect one that lists 1.0 and 1.2. -/
def peers : List Event :=
  [.tcpConnect lowVersions .datapath, .hello ⟨Openflow12.OFP_VERSION, 0, none⟩, .fsm .closing,
   .tcpConnect lowVersions .datapath, .hello ⟨Openflow13.OFP_VERSION, 0, some lowVersions.1⟩]

theorem offer_exact_iff_peers :
    Runs.Along step (fun _ e c' => ∀ m, e = .hello m → OfferExact m c') (new 0 0) peers := by
  obtain ⟨c, hrun⟩ : ∃ c, Runs.run step (new 0 0) peers = some c := ⟨_, rfl⟩
  have hconnect : ∀ m, (.tcpConnect lowVersions .datapath : Event) = .hello m → ∀ c, FindsNoOther m c :=
    fun m hm => by cases hm
  have hclosing : ∀ m, (.fsm .closing : Event) = .hello m → ∀ c, FindsNoOther m c := fun m hm => by cases hm
  have hoct : (new 0 0).versionbitmap.Octets := fun v hv => by simp [new] at hv
  refine (offer_exact_iff hrun).mpr ⟨fun m hm => hconnect m hm _, fun m hm => ?_, fun m hm => hclosing m hm _,
    fun m hm => hconnect m hm _, fun m hm => ?_, trivial⟩
  · cases hm
    intro _ v hv
    have hstart := (peer_step (e := .tcpConnect lowVersions .datapath) hoct rfl v).symm.trans hv
    simp [new, remembers] at hstart
  · cases hm
    exact fun honly => absurd honly (by decide)

/-- A peer with 1.2, then a reconnect to a peer with 1.0: both versions are
held, and 1.2 is chosen. -/
theorem offer_inexact : ∃ c c',
    Runs.run step (new 0 0) [.tcpConnect lowVersions .datapath, .hello ⟨Openflow12.OFP_VERSION, 0, none⟩,
      .fsm .closing, .tcpConnect lowVersions .datapath] = some c ∧
    step c (.hello ⟨Openflow10.OFP_VERSION, 0, none⟩) = some c' ∧
    c'.ofpVersion = Openflow12.OFP_VERSION ∧ ¬ OfferExact ⟨Openflow10.OFP_VERSION, 0, none⟩ c' := by
  refine ⟨_, _, rfl, rfl, by decide, fun h => ?_⟩
  have := h.peer 3
  revert this
  decide

end Reconnect
end RoflCommon
