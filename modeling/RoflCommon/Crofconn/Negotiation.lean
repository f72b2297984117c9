/-
Two connections negotiate: each sends its HELLO and handles the other's, in
any order.

What the exchange is for is one verdict on both sides: the highest version
both own, or failure on both sides where they have none in common. The code
does not always reach it. `hello_rcvd` takes a header version of 1.0 or 1.2
for the whole offer, although every HELLO carries a versionbitmap, and it
adds that version to whatever an earlier peer left in `versionbitmap_peer`.
`negotiation_agrees_iff` says for which pairs the verdict is reached.
-/
import RoflCommon.Crofconn.Fsm
import RoflCommon.Lib.Runs
import Mathlib.Order.Bounds.Basic

namespace RoflCommon
namespace Negotiation

open Crofconn

/-! ## The exchange -/

inductive Side
  | a | b
deriving DecidableEq, Repr

/-- One connection, the HELLOs under way to it, whether it has handled one,
and its effects so far. -/
structure Party where
  conn : Crofconn
  inbox : List CofmsgHello
  done : Bool
  log : List Effect
deriving DecidableEq, Repr

abbrev Exchange := Side → Party

inductive Act
  /-- The socket of this side reports the connection established. -/
  | connected (x : Side)
  /-- This side handles the HELLO that arrives. -/
  | recv (x : Side)
deriving DecidableEq, Repr

/-- The HELLOs among the effects. -/
def hellosOf (es : List Effect) : List CofmsgHello :=
  es.filterMap fun
    | .sendMessage (.hello m) => some m
    | _ => none

/-- The connection of side `x` runs a piece of code; the HELLOs it sends are
under way to the other side. -/
def perform (code : Code) (x : Side) (e : Exchange) : Exchange := fun y =>
  let r := code (e x).conn
  if y = x then { e x with conn := r.1, log := (e x).log ++ r.2 }
  else { e y with inbox := (e y).inbox ++ hellosOf r.2 }

/-- Side `x` takes the HELLO at the head of its inbox. -/
def take (x : Side) (e : Exchange) : Exchange := fun y =>
  if y = x then { e x with inbox := (e x).inbox.tail, done := true } else e y

def step (e : Exchange) : Act → Option Exchange
  | .connected x =>
    if (e x).done then none else some (perform (runFiniteStateMachine .negotiating) x e)
  | .recv x =>
    if (e x).done then none
    else (e x).inbox.head?.map fun m => perform (helloRcvd m) x (take x e)

/-- A version set an application may configure: versions 1.0, 1.2 and 1.3,
at least one of them. -/
structure Supported (b : Versionbitmap) : Prop where
  only : ∀ v, b.test v = true → v = 1 ∨ v = 3 ∨ v = 4
  nonempty : ∃ v, b.test v = true

instance (b : Versionbitmap) : Decidable (Supported b) :=
  decidable_of_iff
    ((∀ v < b.bitmaps.length * 32, b.test v = true → v = 1 ∨ v = 3 ∨ v = 4) ∧
      ∃ v < b.bitmaps.length * 32, b.test v = true) <| by
    constructor
    · rintro ⟨h, v, -, hv⟩
      exact ⟨fun u hu => h u (Wordset.lt_of_test (by decide) hu) hu, v, hv⟩
    · rintro ⟨h, v, hv⟩
      exact ⟨fun u _ hu => h u hu, v, Wordset.lt_of_test (by decide) hv, hv⟩

/-- A party about to negotiate. Its `versionbitmap_peer` holds whatever
earlier connections have left. -/
structure Party.Ready (p : Party) : Prop where
  own : Supported p.conn.versionbitmap
  mode : p.conn.mode = .controller ∨ p.conn.mode = .datapath
  state : HandlesHello p.conn.state
  unsent : p.conn.flagHelloSent = false
  fresh : p.inbox = [] ∧ p.done = false ∧ p.log = []

/-- A party that has never had a connection, opening its first. -/
def Party.initial (own : Versionbitmap) (mode : Mode) : Party :=
  ⟨{ Crofconn.new 0 0 with versionbitmap := own, mode := mode, state := .connectPending }, [], false, []⟩

theorem Party.initial_ready {own : Versionbitmap} {mode : Mode} (h : Supported own)
    (hm : mode = .controller ∨ mode = .datapath) : (Party.initial own mode).Ready :=
  ⟨h, hm, .inl rfl, rfl, rfl, rfl, rfl⟩

/-- Both parties open their first connection. -/
def initial (a b : Versionbitmap) : Exchange
  | .a => Party.initial a .controller
  | .b => Party.initial b .datapath

/-! ## The verdict -/

def failed (p : Party) : Prop := .callback .negotiationFailed ∈ p.log

instance (p : Party) : Decidable (failed p) := inferInstanceAs (Decidable (_ ∈ _))

/-- The versions both sides own. -/
def common (s : Exchange) : Set Nat :=
  { v | (s .a).conn.versionbitmap.test v = true ∧ (s .b).conn.versionbitmap.test v = true }

/-- The verdict the exchange from `s` is for, reached in `t`. -/
def Agree (s t : Exchange) : Prop :=
  (∃ v, IsGreatest (common s) v ∧ ∀ x, (t x).conn.ofpVersion.toNat = v ∧ ¬ failed (t x)) ∨
    (common s = ∅ ∧ ∀ x, failed (t x))

/-! ## What a party sends -/

/-- The HELLO of an owner of the versions `b`. -/
def IsHelloOf (b : Versionbitmap) (m : CofmsgHello) : Prop :=
  m.version = b.getHighestOfpVersion ∧ m.helloelems = some b

@[simp] theorem hellosOf_append (es fs : List Effect) : hellosOf (es ++ fs) = hellosOf es ++ hellosOf fs :=
  List.filterMap_append

/-- Code that leaves the own versions alone and sends no HELLO but the one
that offers them. -/
structure Honest (code : Code) : Prop where
  own : ∀ c, (code c).1.versionbitmap = c.versionbitmap
  hello : ∀ c, ∀ m ∈ hellosOf (code c).2, IsHelloOf c.versionbitmap m

theorem Honest.seq {f g : Code} (hf : Honest f) (hg : Honest g) : Honest (Crofconn.seq f g) where
  own c := (hg.own _).trans (hf.own c)
  hello c m hm := by
    simp only [Crofconn.seq, hellosOf_append, List.mem_append] at hm
    rcases hm with hm | hm
    · exact hf.hello c m hm
    · exact hf.own c ▸ hg.hello _ m hm

theorem honest_assign {f : Crofconn → Crofconn} (hf : ∀ c, (f c).versionbitmap = c.versionbitmap) :
    Honest (assign f) where
  own := hf
  hello _ _ hm := by simp [assign, hellosOf] at hm

theorem honest_sendHelloMessage : Honest sendHelloMessage where
  own c := (sendHelloMessage_keeps c).own
  hello c m hm := by
    unfold sendHelloMessage at hm
    split at hm
    · simp [hellosOf] at hm
    · obtain rfl : m = c.helloMessage := by simpa [hellosOf] using hm
      exact ⟨rfl, rfl⟩

theorem honest_exec (op : FsmOp) : Honest op.exec where
  own c := (op.exec_keeps c).own
  hello c m hm := by
    cases op with
    | sendHello => exact honest_sendHelloMessage.hello c m hm
    | waitForHello => simp only [FsmOp.exec] at hm; split at hm <;> simp [hellosOf] at hm
    | _ => simp [FsmOp.exec, effect, assign, hellosOf, Crofconn.sendFeaturesRequest] at hm

theorem honest_execAll (ops : List FsmOp) : Honest (execAll ops) := by
  induction ops with
  | nil => exact ⟨fun _ => rfl, fun _ _ hm => by simp [execAll, hellosOf] at hm⟩
  | cons op ops ih => exact (honest_exec op).seq ih

theorem honest_runFiniteStateMachine (s : ConnState) : Honest (runFiniteStateMachine s) where
  own c := (runFiniteStateMachine_keeps s c).own
  hello c m hm := by
    unfold runFiniteStateMachine at hm
    split at hm
    · simp [hellosOf] at hm
    · exact (honest_execAll _).hello c m hm

theorem honest_moveOn : Honest moveOn where
  own c := (moveOn_keeps c).own
  hello c m hm := by
    unfold moveOn at hm
    split at hm
    · exact (honest_runFiniteStateMachine _).hello c m hm
    · split at hm
      · split at hm <;> exact (honest_runFiniteStateMachine _).hello c m hm
      · exact (honest_runFiniteStateMachine _).hello c m hm
      · exact (honest_runFiniteStateMachine _).hello c m hm

theorem honest_selectVersion (msg : CofmsgHello) : Honest (selectVersion msg) where
  own c := (selectVersion_keeps msg c).own
  hello c m hm := by
    unfold selectVersion at hm
    dsimp only at hm
    split at hm
    · -- the error message is no HELLO
      have hnone : hellosOf [Effect.sendMessage
          (.helloFailedIncompatible msg.version msg.xid (msg.pack.take 64))] = [] := rfl
      simp only [helloIncompatible, Crofconn.seq, effect, hellosOf_append, hnone, List.nil_append] at hm
      exact (honest_runFiniteStateMachine _).hello c m hm
    · exact honest_moveOn.hello
        { c with ofpVersion := (c.versionbitmap.and c.versionbitmapPeer).getHighestOfpVersion } m hm

theorem honest_helloRcvd (msg : CofmsgHello) : Honest (helloRcvd msg) := by
  have heffect : Honest (effect (.dropTimer .waitForHello)) :=
    ⟨fun _ => rfl, fun _ _ hm => by simp [effect, hellosOf] at hm⟩
  refine honest_sendHelloMessage.seq (.seq ?_ (heffect.seq (.seq ?_ (honest_selectVersion msg))))
  · exact honest_assign fun _ => rfl
  · exact honest_assign fun _ => rfl

/-! ## What one HELLO decides -/

/-- The version a party with the versions `own` settles on, having `stale` in
`versionbitmap_peer` when the HELLO arrives. -/
def outcome (own stale : Versionbitmap) (m : CofmsgHello) : UInt8 :=
  (own.and (peerVersions stale m)).getHighestOfpVersion

/-- With a version chosen the connection moves on and keeps it. -/
theorem moveOn_verdict {c : Crofconn} (hs : HandlesHello c.state)
    (hm : c.mode = .controller ∨ c.mode = .datapath) (hv : c.ofpVersion ≠ Openflow.OFP_VERSION_UNKNOWN) :
    (moveOn c).1.ofpVersion = c.ofpVersion ∧ .callback .negotiationFailed ∉ (moveOn c).2 := by
  have key : ∀ s : ConnState, s = .negotiating2 ∨ s = .established → moveOn c = runFiniteStateMachine s c →
      (moveOn c).1.ofpVersion = c.ofpVersion ∧ .callback .negotiationFailed ∉ (moveOn c).2 := by
    intro s hs' heq
    have hne : c.state ≠ s := by
      rcases hs with h | h | h <;> rcases hs' with rfl | rfl <;> simp [h]
    rw [heq, runFiniteStateMachine_of_ne hne, execAll_ofpVersion, callback_mem_execAll]
    rcases hs' with rfl | rfl <;> simp [caseOps]
  unfold moveOn at key ⊢
  rw [if_neg hv] at key ⊢
  rcases hm with hm | hm
  · by_cases h13 : c.ofpVersion ≥ Openflow13.OFP_VERSION
    · exact key .negotiating2 (.inl rfl) (by simp only [hm, h13, if_true])
    · exact key .established (.inr rfl) (by simp only [hm, h13, if_false])
  · exact key .established (.inr rfl) (by simp only [hm])

/-- **One HELLO, one verdict**: the version that comes out, or the failure of
the negotiation where none does. -/
theorem helloRcvd_verdict {c : Crofconn} {msg : CofmsgHello} (hs : HandlesHello c.state)
    (hm : c.mode = .controller ∨ c.mode = .datapath) :
    (helloRcvd msg c).1.ofpVersion = outcome c.versionbitmap c.versionbitmapPeer msg ∧
      (.callback .negotiationFailed ∈ (helloRcvd msg c).2 ↔
        outcome c.versionbitmap c.versionbitmapPeer msg = Openflow.OFP_VERSION_UNKNOWN) := by
  have hsent : .callback .negotiationFailed ∉ (sendHelloMessage c).2 := fun h =>
    nomatch (FsmOp.callback_mem_exec .sendHello c _).mp h
  have hstate : (c.atSelection msg).state = c.state ∧ (c.atSelection msg).mode = c.mode := by
    unfold atSelection sendHelloMessage
    split <;> exact ⟨rfl, rfl⟩
  have hout : outcome c.versionbitmap c.versionbitmapPeer msg =
      ((c.atSelection msg).versionbitmap.and (c.atSelection msg).versionbitmapPeer).getHighestOfpVersion := by
    have : (c.atSelection msg).versionbitmap = c.versionbitmap := (sendHelloMessage_keeps c).own
    rw [this]
    rfl
  rw [helloRcvd_eq, hout]
  simp only [List.mem_append, hsent, List.mem_cons, reduceCtorEq, false_or]
  generalize c.atSelection msg = d at hstate ⊢
  rw [← hstate.1] at hs
  rw [← hstate.2] at hm
  unfold selectVersion
  dsimp only
  split
  · next hnone =>
    have hne : d.state ≠ .negotiationFailed := by rcases hs with h | h | h <;> simp [h]
    simp only [helloIncompatible, Crofconn.seq, effect, runFiniteStateMachine_of_ne hne, execAll_ofpVersion,
      List.mem_append, callback_mem_execAll]
    exact ⟨by simp [caseOps, closingOps, disconnectedOps, hnone], by simp [caseOps, hnone]⟩
  · next hsome =>
    have h := moveOn_verdict (c := { d with
      ofpVersion := (d.versionbitmap.and d.versionbitmapPeer).getHighestOfpVersion }) hs hm hsome
    exact ⟨h.1, fun hf => absurd hf h.2, fun hf => absurd hf hsome⟩

/-! ## When the verdict is the right one -/

/-- A party with the versions `own`, holding `stale` of earlier peers, reads
the offer of `peer` well enough: the offer's highest version is 1.3, so that
its versionbitmap is read; or it is an own version and no stale own version
lies above it; or it is not, and the stale versions happen to give the
highest common version. -/
def ReadsOffer (own stale peer : Versionbitmap) : Prop :=
  peer.getHighestOfpVersion = Openflow13.OFP_VERSION ∨
    (own.hasOfpVersion peer.getHighestOfpVersion = true ∧
      ∀ v, stale.test v = true → own.test v = true → v ≤ peer.getHighestOfpVersion.toNat) ∨
    (own.hasOfpVersion peer.getHighestOfpVersion = false ∧
      (own.and stale).getHighestOfpVersion = (own.and peer).getHighestOfpVersion)

theorem Supported.octets {b : Versionbitmap} (h : Supported b) : b.Octets := fun v hv => by
  rcases h.only v hv with rfl | rfl | rfl <;> decide

theorem Supported.test_zero {b : Versionbitmap} (h : Supported b) : b.test 0 = false := by
  by_contra h0
  have := h.only 0 (by simpa using h0)
  omega

/-- The highest of a configured set is one of its versions. -/
theorem Supported.highest {b : Versionbitmap} (h : Supported b) :
    b.test b.getHighestOfpVersion.toNat = true ∧
      (b.getHighestOfpVersion = Openflow10.OFP_VERSION ∨ b.getHighestOfpVersion = Openflow12.OFP_VERSION ∨
        b.getHighestOfpVersion = Openflow13.OFP_VERSION) := by
  have hne : b.getHighestOfpVersion ≠ Openflow.OFP_VERSION_UNKNOWN := fun h0 => by
    obtain ⟨v, hv⟩ := h.nonempty
    rw [Versionbitmap.getHighestOfpVersion_eq_unknown h.octets h.test_zero] at h0
    rw [h0 v] at hv
    cases hv
  have hmem := Versionbitmap.test_getHighestOfpVersion h.octets hne
  refine ⟨hmem, ?_⟩
  rcases h.only _ hmem with h1 | h1 | h1
  · exact .inl (UInt8.toNat_inj.mp h1)
  · exact .inr (.inl (UInt8.toNat_inj.mp h1))
  · exact .inr (.inr (UInt8.toNat_inj.mp h1))

/-- With a header version of 1.0 or 1.2 the set consulted is the stale one
with the header version added. -/
theorem test_peerVersions_of_low {stale : Versionbitmap} {m : CofmsgHello}
    (h : m.version = Openflow10.OFP_VERSION ∨ m.version = Openflow12.OFP_VERSION) (v : Nat) :
    (peerVersions stale m).test v = (decide (v = m.version.toNat) || stale.test v) := by
  simp only [peerVersions, h, if_true, Versionbitmap.test_addOfpVersion, Versionbitmap.test_clear]

theorem outcome_eq_iff {own stale peer : Versionbitmap} {m : CofmsgHello} (hown : Supported own)
    (hpeer : Supported peer) (hm : IsHelloOf peer m) :
    outcome own stale m = (own.and peer).getHighestOfpVersion ↔ ReadsOffer own stale peer := by
  obtain ⟨hmem, hver⟩ := hpeer.highest
  obtain ⟨hversion, helems⟩ := hm
  unfold ReadsOffer outcome
  rw [Versionbitmap.hasOfpVersion_eq]
  rcases or_assoc.mpr hver with hlow | h13
  · have h13 : peer.getHighestOfpVersion ≠ Openflow13.OFP_VERSION := by
      rcases hlow with h | h <;> rw [h] <;> decide
    have htest := @test_peerVersions_of_low stale m (hversion ▸ hlow)
    have hmax : ∀ u, peer.test u = true → u ≤ peer.getHighestOfpVersion.toNat :=
      fun u => Versionbitmap.le_getHighestOfpVersion hpeer.octets
    rw [hversion] at htest
    generalize peer.getHighestOfpVersion = h at *
    simp only [h13, false_or]
    cases hh : own.test h.toNat with
    | true =>
      -- the header version is the right answer; only a stale version can hide it
      have hright : (own.and peer).getHighestOfpVersion = h := by
        rw [Versionbitmap.getHighestOfpVersion_eq (v := h.toNat) (by simp [hh, hmem]) ?_, UInt8.ofNat_toNat]
        intro u hu
        simp only [Versionbitmap.test_and, Bool.and_eq_true] at hu
        exact hmax u hu.2
      simp only [hright, true_and, reduceCtorEq, false_and, or_false]
      constructor
      · intro hout v hstale hv
        rw [← hout]
        exact Versionbitmap.le_getHighestOfpVersion (hown.octets.and _) (by simp [htest, hstale, hv])
      · intro hle
        rw [Versionbitmap.getHighestOfpVersion_eq (v := h.toNat) (by simp [htest, hh]) ?_, UInt8.ofNat_toNat]
        intro u hu
        simp only [Versionbitmap.test_and, htest, Bool.and_eq_true, Bool.or_eq_true, decide_eq_true_eq] at hu
        rcases hu with ⟨hu, rfl | hstale⟩
        · exact Nat.le_refl _
        · exact hle u hstale hu
    | false =>
      simp only [Bool.false_eq_true, false_and, true_and, false_or]
      rw [Versionbitmap.getHighestOfpVersion_congr (a := own.and (peerVersions stale m)) (b := own.and stale)]
      intro v
      rw [Versionbitmap.test_and, Versionbitmap.test_and, htest]
      by_cases hv : v = h.toNat
      · simp [hv, hh]
      · simp [hv]
  · simp only [h13, true_or, iff_true]
    have hhigh : ¬ (m.version = Openflow10.OFP_VERSION ∨ m.version = Openflow12.OFP_VERSION) := by
      rw [hversion, h13]
      decide
    simp only [peerVersions, hhigh, if_false, helems]

/-! ## The exchange keeps track -/

/-- A party that has not handled a HELLO yet. -/
structure Waiting (p₀ p : Party) : Prop where
  peer : ∀ v, p.conn.versionbitmapPeer.test v = p₀.conn.versionbitmapPeer.test v
  mode : p.conn.mode = p₀.conn.mode
  state : HandlesHello p.conn.state
  unfailed : ¬ failed p

/-- A party that has handled the HELLO of an owner of the versions `peer`. -/
def Decided (p₀ p : Party) (peer : Versionbitmap) : Prop :=
  ∃ m, IsHelloOf peer m ∧
    p.conn.ofpVersion = outcome p₀.conn.versionbitmap p₀.conn.versionbitmapPeer m ∧
    (failed p ↔ p.conn.ofpVersion = Openflow.OFP_VERSION_UNKNOWN)

structure Inv (s e : Exchange) : Prop where
  own : ∀ x, (e x).conn.versionbitmap = (s x).conn.versionbitmap
  inbox : ∀ x y, x ≠ y → ∀ m ∈ (e x).inbox, IsHelloOf (s y).conn.versionbitmap m
  waiting : ∀ x, (e x).done = false → Waiting (s x) (e x)
  decided : ∀ x y, x ≠ y → (e x).done = true → Decided (s x) (e x) (s y).conn.versionbitmap

theorem perform_self (code : Code) (x : Side) (e : Exchange) : perform code x e x =
    { e x with conn := (code (e x).conn).1, log := (e x).log ++ (code (e x).conn).2 } := by
  simp [perform]

theorem perform_other (code : Code) {x y : Side} (h : y ≠ x) (e : Exchange) : perform code x e y =
    { e y with inbox := (e y).inbox ++ hellosOf (code (e x).conn).2 } := by
  simp [perform, h]

theorem perform_own {code : Code} (hc : Honest code) (x : Side) (e : Exchange) (y : Side) :
    (perform code x e y).conn.versionbitmap = (e y).conn.versionbitmap := by
  by_cases hy : y = x
  · subst hy
    rw [perform_self]
    exact hc.own _
  · rw [perform_other code hy]

theorem perform_inbox {code : Code} (hc : Honest code) {x y : Side} {e : Exchange} {m : CofmsgHello}
    (hm : m ∈ (perform code x e y).inbox) :
    m ∈ (e y).inbox ∨ (y ≠ x ∧ IsHelloOf (e x).conn.versionbitmap m) := by
  by_cases hy : y = x
  · subst hy
    rw [perform_self] at hm
    exact .inl hm
  · rw [perform_other code hy] at hm
    rcases List.mem_append.mp hm with hm | hm
    · exact .inl hm
    · exact .inr ⟨hy, hc.hello _ m hm⟩

theorem eq_of_ne_of_ne {x y z : Side} (hx : x ≠ z) (hy : y ≠ z) : x = y := by
  cases x <;> cases y <;> cases z <;> simp_all

theorem Inv.inbox_perform {code : Code} (hc : Honest code) {s e e' : Exchange} {x : Side} (h : Inv s e)
    (hown : (e' x).conn = (e x).conn) (hin : ∀ y, ∀ m ∈ (e' y).inbox, m ∈ (e y).inbox) :
    ∀ y z, y ≠ z → ∀ m ∈ (perform code x e' y).inbox, IsHelloOf (s z).conn.versionbitmap m := by
  intro y z hyz m hm
  rcases perform_inbox hc hm with hm | ⟨hyx, hm⟩
  · exact h.inbox y z hyz m (hin y m hm)
  · obtain rfl : z = x := eq_of_ne_of_ne (Ne.symm hyz) (Ne.symm hyx)
    rwa [hown, h.own] at hm

theorem outcome_congr {own stale stale' : Versionbitmap} (m : CofmsgHello)
    (h : ∀ v, stale.test v = stale'.test v) : outcome own stale m = outcome own stale' m :=
  Versionbitmap.getHighestOfpVersion_congr fun v => by
    simp only [Versionbitmap.test_and, test_peerVersions, h]

theorem runFiniteStateMachine_negotiating (c : Crofconn) :
    (runFiniteStateMachine .negotiating c).1.state = .negotiating ∧
      .callback .negotiationFailed ∉ (runFiniteStateMachine .negotiating c).2 := by
  by_cases h : c.state = .negotiating
  · simp [runFiniteStateMachine, h]
  · rw [runFiniteStateMachine_of_ne h, callback_mem_execAll]
    refine ⟨?_, by simp [caseOps]⟩
    simp only [execAll, caseOps, seq, FsmOp.exec, assign, sendHelloMessage]
    split <;> split <;> rfl

theorem Inv.connected {s e e' : Exchange} {x : Side} (h : Inv s e) (hstep : step e (.connected x) = some e') :
    Inv s e' := by
  simp only [step] at hstep
  split at hstep
  · cases hstep
  next hdone =>
    obtain rfl := Option.some.inj hstep
    have hc := honest_runFiniteStateMachine .negotiating
    have hw := h.waiting x (by simpa using hdone)
    have hk := runFiniteStateMachine_keeps .negotiating (e x).conn
    have hn := runFiniteStateMachine_negotiating (e x).conn
    refine ⟨fun y => (perform_own hc x e y).trans (h.own y), h.inbox_perform hc rfl fun _ _ hm => hm, ?_, ?_⟩
    · intro y hy
      by_cases hyx : y = x
      · subst hyx
        rw [perform_self]
        refine ⟨fun v => (hk.peer v).trans (hw.peer v), hk.mode.trans hw.mode, .inr (.inr hn.1), ?_⟩
        simp only [failed, List.mem_append, not_or]
        exact ⟨hw.unfailed, hn.2⟩
      · rw [perform_other _ hyx] at hy ⊢
        obtain ⟨h1, h2, h3, h4⟩ := h.waiting y hy
        exact ⟨h1, h2, h3, h4⟩
    · intro y z hyz hy
      have hyx : y ≠ x := by
        rintro rfl
        rw [perform_self] at hy
        exact hdone hy
      rw [perform_other _ hyx] at hy ⊢
      exact h.decided y z hyz hy

theorem Inv.recv {s e e' : Exchange} {x : Side} (hs : ∀ x, (s x).Ready) (h : Inv s e)
    (hstep : step e (.recv x) = some e') : Inv s e' := by
  simp only [step] at hstep
  split at hstep
  · cases hstep
  next hdone =>
    obtain ⟨m, hm, rfl⟩ := Option.map_eq_some_iff.mp hstep
    have hmem : m ∈ (e x).inbox := List.mem_of_mem_head? hm
    have hc := honest_helloRcvd m
    have hw := h.waiting x (by simpa using hdone)
    have hconn : ∀ y, (take x e y).conn = (e y).conn := fun y => by
      by_cases hy : y = x
      · simp [take, hy]
      · simp [take, hy]
    have hin : ∀ y, ∀ m ∈ (take x e y).inbox, m ∈ (e y).inbox := fun y n hn => by
      by_cases hy : y = x
      · subst hy
        simp only [take, if_true] at hn
        exact List.mem_of_mem_tail hn
      · simpa [take, hy] using hn
    refine ⟨fun y => ?_, h.inbox_perform hc (hconn x) hin, ?_, ?_⟩
    · rw [perform_own hc, hconn, h.own]
    · intro y hy
      have hyx : y ≠ x := by
        rintro rfl
        rw [perform_self] at hy
        simp [take] at hy
      rw [perform_other _ hyx] at hy ⊢
      simp only [take, hyx, if_false] at hy ⊢
      obtain ⟨h1, h2, h3, h4⟩ := h.waiting y hy
      exact ⟨h1, h2, h3, h4⟩
    · intro y z hyz hy
      by_cases hyx : y = x
      · subst hyx
        have hv := @helloRcvd_verdict _ m hw.state (hw.mode ▸ (hs y).mode)
        refine ⟨m, h.inbox y z hyz m hmem, ?_⟩
        rw [perform_self]
        simp only [failed, take, if_true, List.mem_append, hv.1, hv.2, h.own y, outcome_congr m hw.peer]
        exact ⟨trivial, or_iff_right hw.unfailed⟩
      · rw [perform_other _ hyx] at hy ⊢
        simp only [take, hyx, if_false] at hy ⊢
        exact h.decided y z hyz hy

theorem Inv.start {s : Exchange} (hs : ∀ x, (s x).Ready) : Inv s s where
  own _ := rfl
  inbox x _ _ m hm := by
    rw [(hs x).fresh.1] at hm
    cases hm
  waiting x _ := ⟨fun _ => rfl, rfl, (hs x).state, by simp [failed, (hs x).fresh.2.2]⟩
  decided x _ _ hx := by
    rw [(hs x).fresh.2.1] at hx
    cases hx

theorem inv_run {s t : Exchange} {as : List Act} (hs : ∀ x, (s x).Ready)
    (h : Runs.run step s as = some t) : Inv s t := by
  refine Runs.invariant (I := Inv s) (fun e a e' he hstep => ?_) (Inv.start hs) h
  cases a with
  | connected x => exact he.connected hstep
  | recv x => exact he.recv hs hstep

/-! ## Agreement -/

theorem mem_common_iff {s : Exchange} {v : Nat} : v ∈ common s ↔
    ((s .a).conn.versionbitmap.and (s .b).conn.versionbitmap).test v = true := by
  simp [common]

/-- The verdict in terms of the highest version of the intersection. -/
theorem agree_iff {s t : Exchange} (hs : ∀ x, Supported (s x).conn.versionbitmap)
    (hf : ∀ x, failed (t x) ↔ (t x).conn.ofpVersion = Openflow.OFP_VERSION_UNKNOWN) :
    Agree s t ↔ ∀ x, (t x).conn.ofpVersion =
      ((s .a).conn.versionbitmap.and (s .b).conn.versionbitmap).getHighestOfpVersion := by
  have hoct := (hs .a).octets.and (s .b).conn.versionbitmap
  have hzero : ((s .a).conn.versionbitmap.and (s .b).conn.versionbitmap).test 0 = false := by
    simp [(hs .a).test_zero]
  have hunknown := Versionbitmap.getHighestOfpVersion_eq_unknown hoct hzero
  have hmem := fun v => @mem_common_iff s v
  generalize (s .a).conn.versionbitmap.and (s .b).conn.versionbitmap = g at *
  have hempty : common s = ∅ ↔ g.getHighestOfpVersion = Openflow.OFP_VERSION_UNKNOWN := by
    rw [hunknown, Set.eq_empty_iff_forall_notMem]
    simp [hmem]
  constructor
  · rintro (⟨v, hv, hx⟩ | ⟨hnone, hx⟩) x
    · have := Versionbitmap.getHighestOfpVersion_eq ((hmem v).mp hv.1) fun u hu => hv.2 ((hmem u).mpr hu)
      rw [this, ← (hx x).1, UInt8.ofNat_toNat]
    · rw [hempty.mp hnone]
      exact (hf x).mp (hx x)
  · intro hx
    by_cases h0 : g.getHighestOfpVersion = Openflow.OFP_VERSION_UNKNOWN
    · exact .inr ⟨hempty.mpr h0, fun x => (hf x).mpr ((hx x).trans h0)⟩
    · refine .inl ⟨g.getHighestOfpVersion.toNat, ⟨?_, fun u hu => ?_⟩, fun x => ⟨?_, fun hfx => ?_⟩⟩
      · exact (hmem _).mpr (Versionbitmap.test_getHighestOfpVersion hoct h0)
      · exact Versionbitmap.le_getHighestOfpVersion hoct ((hmem u).mp hu)
      · rw [hx x]
      · exact h0 ((hx x).symm.trans ((hf x).mp hfx))

/-- **Agreement.** When both sides have handled a HELLO, in whatever order,
they have reached the verdict if and only if each side read the other's offer
well enough. -/
theorem negotiation_agrees_iff {s t : Exchange} {as : List Act} (hs : ∀ x, (s x).Ready)
    (h : Runs.run step s as = some t) (hdone : ∀ x, (t x).done = true) :
    Agree s t ↔ ∀ x y, x ≠ y → ReadsOffer (s x).conn.versionbitmap (s x).conn.versionbitmapPeer
      (s y).conn.versionbitmap := by
  have hinv := inv_run hs h
  have hd := fun x y hxy => hinv.decided x y hxy (hdone x)
  have hf : ∀ x, failed (t x) ↔ (t x).conn.ofpVersion = Openflow.OFP_VERSION_UNKNOWN := fun x => by
    obtain ⟨y, hxy⟩ : ∃ y, x ≠ y := by cases x; exacts [⟨.b, by decide⟩, ⟨.a, by decide⟩]
    obtain ⟨m, -, -, hfail⟩ := hd x y hxy
    exact hfail
  rw [agree_iff (fun x => (hs x).own) hf]
  have hside : ∀ x y, x ≠ y → ((t x).conn.ofpVersion =
      ((s .a).conn.versionbitmap.and (s .b).conn.versionbitmap).getHighestOfpVersion ↔
        ReadsOffer (s x).conn.versionbitmap (s x).conn.versionbitmapPeer (s y).conn.versionbitmap) := by
    intro x y hxy
    obtain ⟨m, hm, hout, -⟩ := hd x y hxy
    rw [← outcome_eq_iff (hs x).own (hs y).own hm, hout]
    have hcomm : ((s .a).conn.versionbitmap.and (s .b).conn.versionbitmap).getHighestOfpVersion =
        ((s x).conn.versionbitmap.and (s y).conn.versionbitmap).getHighestOfpVersion := by
      refine Versionbitmap.getHighestOfpVersion_congr fun v => ?_
      cases x <;> cases y <;> simp_all [Bool.and_comm]
    rw [hcomm]
  constructor
  · exact fun hx x y hxy => (hside x y hxy).mp (hx x)
  · intro hx x
    obtain ⟨y, hxy⟩ : ∃ y, x ≠ y := by cases x; exacts [⟨.b, by decide⟩, ⟨.a, by decide⟩]
    exact (hside x y hxy).mpr (hx x y hxy)

/-- Both sides connect, and each handles the other's HELLO. -/
def bothHandle : List Act := [.connected .a, .connected .b, .recv .a, .recv .b]

/-- A controller with 1.3 alone and a datapath with 1.0 and 1.3. -/
theorem negotiation_agrees_iff_high :
    Agree (initial ⟨[0, 1, 0, 0], [16]⟩ ⟨[0, 1, 0, 0], [18]⟩)
        ((Runs.run step (initial ⟨[0, 1, 0, 0], [16]⟩ ⟨[0, 1, 0, 0], [18]⟩) bothHandle).getD
          (initial .new .new)) ↔
      ∀ x y, x ≠ y →
        ReadsOffer (initial ⟨[0, 1, 0, 0], [16]⟩ ⟨[0, 1, 0, 0], [18]⟩ x).conn.versionbitmap
          (initial ⟨[0, 1, 0, 0], [16]⟩ ⟨[0, 1, 0, 0], [18]⟩ x).conn.versionbitmapPeer
          (initial ⟨[0, 1, 0, 0], [16]⟩ ⟨[0, 1, 0, 0], [18]⟩ y).conn.versionbitmap :=
  @negotiation_agrees_iff _ _ bothHandle
    (by rintro (_ | _) <;> exact Party.initial_ready (by decide) (by decide)) rfl
    (by rintro (_ | _) <;> rfl)

/-- A controller with 1.0 and 1.3 and a datapath with 1.0 and 1.2: the
datapath settles on 1.0, the controller sees 1.2 alone and gives up. -/
theorem negotiation_disagrees :
    (∀ x, (initial ⟨[0, 1, 0, 0], [18]⟩ ⟨[0, 1, 0, 0], [10]⟩ x).Ready) ∧
      ∃ t, Runs.run step (initial ⟨[0, 1, 0, 0], [18]⟩ ⟨[0, 1, 0, 0], [10]⟩) bothHandle = some t ∧
        (∀ x, (t x).done = true) ∧ (t .b).conn.ofpVersion = Openflow10.OFP_VERSION ∧ failed (t .a) ∧
        ¬ Agree (initial ⟨[0, 1, 0, 0], [18]⟩ ⟨[0, 1, 0, 0], [10]⟩) t := by
  refine ⟨by rintro (_ | _) <;> exact Party.initial_ready (by decide) (by decide),
    _, rfl, by rintro (_ | _) <;> rfl, by decide, by decide, ?_⟩
  rintro (⟨v, -, hx⟩ | ⟨-, hx⟩)
  · exact (hx .a).2 (by decide)
  · exact absurd (hx .b) (by decide)

end Negotiation
end RoflCommon
