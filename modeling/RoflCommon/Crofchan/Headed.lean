/-
Whether a channel is up, and what it does with a message.

`is_established` looks the main connection up with `at`, which throws where
there are connections but no main one. A channel gets there by adding an
auxiliary connection first, and by losing a passive main connection while active
auxiliary ones stay. A message that cannot be sent is refused with an exception
that has lost its class (`answers_iff_meets`).
-/
import RoflCommon.Crofchan
import RoflCommon.Lib.Runs

namespace RoflCommon

structure Chan where
  heap : ConnHeap
  chan : Crofchan

namespace Chan

/-- The number the channel has itself does not matter. -/
def self : ℕ := 0

def new : Chan := ⟨.empty, .new⟩

inductive Act
  | addConn
  | addConnAs (auxid : Auxid)
  /-- `add_conn` of a pointer: null, or to a connection somebody else has made. -/
  | addConnPtr (conn : Option ChanConn)
  | setConn (auxid : Auxid)
  | dropConn (auxid : Auxid)
  | clear
  | handleEstablished (id : ℕ) (ofpVersion : UInt8)
  | handleClosed (id : ℕ)
  /-- Whatever happens to a connection meanwhile. -/
  | conn (id : ℕ) (conn : ChanConn)

/-- A step that needs the lock does not come where the lock is held for good. -/
def locked (s : Chan) (r : ConnHeap × Crofchan) : Option Chan := if s.chan.blocked then none else some ⟨r.1, r.2⟩

/-- The connection reports to this channel. -/
def Reports (s : Chan) (id : ℕ) : Prop := id < s.heap.next ∧ s.heap.env id = some self

instance (s : Chan) (id : ℕ) : Decidable (s.Reports id) := instDecidableAnd

def step (s : Chan) : Act → Option Chan
  | .addConn => s.locked (s.chan.addConn self s.heap).1
  | .addConnAs auxid => s.locked (s.chan.addConnAs self s.heap auxid)
  | .addConnPtr none => some s
  | .addConnPtr (some c) => s.locked (s.chan.attach self (s.heap.alloc c none) s.heap.next)
  | .setConn auxid => s.locked (s.chan.setConn self s.heap auxid)
  | .dropConn auxid => s.locked (s.chan.dropConn s.heap auxid)
  | .clear => s.locked (s.chan.clear s.heap)
  | .handleEstablished id ofpVersion =>
    if s.Reports id then some { s with chan := s.chan.handleEstablished s.heap id ofpVersion } else none
  | .handleClosed id =>
    if s.Reports id then (s.chan.handleClosed s.heap id).map fun r => ⟨r.1, r.2⟩ else none
  | .conn id c => if id < s.heap.next then some { s with heap := s.heap.modify id fun _ => c } else none

/-! ## What the channel should say -/

/-- The main connection is there and established. -/
def MainUp (s : Chan) : Prop := ∃ id, s.chan.conns.find? 0 = some id ∧ (s.heap.conn id).established = true

/-- The channel is up, and there is the connection to send on. -/
def CanSend (s : Chan) (auxid : Auxid) (id : ℕ) : Prop :=
  s.MainUp ∧ s.chan.conns.find? auxid = some id ∧ (s.heap.conn id).established = true

/-- `is_established` says whether the channel is up, and does not throw. -/
def Tells (s : Chan) : Prop := ∃ b, s.chan.isEstablished s.heap = .ok b ∧ (b = true ↔ s.MainUp)

/-- A message goes to the connection asked for or is refused with
`eRofConnNotConnected`. -/
def Sends (s : Chan) (auxid : Auxid) (ts : Option ℕ) : Prop :=
  (∃ id, s.CanSend auxid id ∧ s.chan.sendMessage s.heap auxid ts = .ok ⟨id, ts⟩) ∨
    (¬ ∃ id, s.CanSend auxid id) ∧ s.chan.sendMessage s.heap auxid ts = .error .notConnected

/-- What is called: an operation, or `send_message`, without a time or with one. -/
inductive Call
  | op (a : Act)
  | sendMessage (auxid : Auxid) (ts : Option ℕ)

/-- The connection a message is handed to changes, if any, and not the channel. -/
def call (s : Chan) : Call → Option Chan
  | .op a => s.step a
  | .sendMessage _ _ => some s

/-- After the call the channel tells whether it is up, and a message is sent or refused
as it should be. -/
structure Answers (s : Chan) (c : Call) (s' : Chan) : Prop where
  isEstablished : s'.Tells
  sendMessage : ∀ auxid ts, c = .sendMessage auxid ts → s.Sends auxid ts

/-- There are no connections, or the main one is among them. -/
def Headed (s : Chan) : Prop := s.chan.conns.entries = [] ∨ (s.chan.conns.find? 0).isSome

theorem headed_iff {s : Chan} : s.Headed ↔ ¬ s.chan.Headless := by
  unfold Headed Crofchan.Headless
  rw [← Option.ne_none_iff_isSome]
  tauto

theorem mainUp_iff {s : Chan} : s.MainUp ↔ s.chan.mainUp s.heap = true := by
  unfold MainUp Crofchan.mainUp
  rw [Option.any_eq_true]

theorem tells_iff {s : Chan} : s.Tells ↔ s.Headed := by
  rw [headed_iff]
  constructor
  · rintro ⟨b, hb, -⟩ hheadless
    rw [Crofchan.isEstablished_of_headless hheadless] at hb
    cases hb
  · intro h
    exact ⟨_, Crofchan.isEstablished_of_not_headless h, mainUp_iff.symm⟩

/-- What is thrown is no `eRofConnNotConnected`. -/
theorem sendMessage_ne (s : Chan) (auxid : Auxid) (ts : Option ℕ) :
    s.chan.sendMessage s.heap auxid ts ≠ .error .notConnected := by
  unfold Crofchan.sendMessage
  by_cases hheadless : s.chan.Headless
  · rw [Crofchan.isEstablished_of_headless hheadless]
    simp
  · rw [Crofchan.isEstablished_of_not_headless hheadless]
    cases s.chan.mainUp s.heap with
    | false => simp [ChanException.setFunc]
    | true =>
      cases s.chan.conns.find? auxid with
      | none => simp [ChanException.setFunc]
      | some id => by_cases hid : (s.heap.conn id).established = true <;> simp [hid, ChanException.setFunc]

theorem sends_iff {s : Chan} {auxid : Auxid} {ts : Option ℕ} : s.Sends auxid ts ↔ ∃ id, s.CanSend auxid id := by
  constructor
  · rintro (⟨id, hid, -⟩ | ⟨-, hthrown⟩)
    · exact ⟨id, hid⟩
    · exact absurd hthrown (s.sendMessage_ne auxid ts)
  · rintro ⟨id, hup, hconn, hid⟩
    have hheaded : ¬ s.chan.Headless := fun h => by
      rw [mainUp_iff, Crofchan.mainUp_of_headless h] at hup
      cases hup
    refine .inl ⟨id, ⟨hup, hconn, hid⟩, ?_⟩
    unfold Crofchan.sendMessage
    rw [Crofchan.isEstablished_of_not_headless hheaded, mainUp_iff.mp hup]
    simp only [hconn, hid, if_true]

/-! ## What keeps the main connection -/

/-- The loop of `handle_closed` would get stuck: an auxiliary connection is
passive. -/
def Stuck (s : Chan) : Prop :=
  ∃ e ∈ s.chan.conns.entries, e.1 ≠ 0 ∧ (s.heap.env e.2).isSome ∧ (s.heap.conn e.2).passive = true

/-- What is added is the main connection, or the main one is there; and a main
connection that is closed is active, or does not leave an active one behind. -/
def Ok (s : Chan) : Act → Prop
  | .addConn => s.chan.lastAuxid = 0 ∨ (s.chan.conns.find? 0).isSome
  | .addConnAs auxid | .setConn auxid => auxid = 0 ∨ (s.chan.conns.find? 0).isSome
  | .addConnPtr (some c) => c.auxid = 0 ∨ (s.chan.conns.find? 0).isSome
  | .handleClosed id => (s.heap.conn id).auxid = 0 →
      (∃ m, s.chan.conns.find? 0 = some m ∧ (s.heap.conn m).passive = true) →
      s.Stuck ∨ ∀ e ∈ s.chan.conns.entries, (s.heap.conn e.2).passive = true
  | .addConnPtr none | .dropConn _ | .clear | .handleEstablished _ _ | .conn _ _ => True

/-- Each connection is there once. -/
structure Intact (s : Chan) : Prop where
  distinct : ∀ k k' id, s.chan.conns.find? k = some id → s.chan.conns.find? k' = some id → k = k'
  allocated : ∀ k id, s.chan.conns.find? k = some id → id < s.heap.next

theorem intact_new : Intact new where
  distinct _ _ _ h := by cases h
  allocated _ _ h := by cases h

/-- What keeps some of the connections. -/
theorem Intact.sub {s s' : Chan} (h : s.Intact) (hnext : s.heap.next ≤ s'.heap.next)
    (hsub : ∀ k id, s'.chan.conns.find? k = some id → s.chan.conns.find? k = some id) : s'.Intact where
  distinct k k' id hk hk' := h.distinct k k' id (hsub k id hk) (hsub k' id hk')
  allocated k id hk := (h.allocated k id (hsub k id hk)).trans_le hnext

/-- What adds one that has just been made. -/
theorem Intact.insert {s s' : Chan} {auxid : Auxid} (h : s.Intact) (hnext : s'.heap.next = s.heap.next + 1)
    (hconns : s'.chan.conns = s.chan.conns.insert auxid s.heap.next) : s'.Intact := by
  have hold : ∀ k id, s'.chan.conns.find? k = some id →
      k = auxid ∧ id = s.heap.next ∨ k ≠ auxid ∧ s.chan.conns.find? k = some id := by
    intro k id hk
    rw [hconns, Omap.find?_insert] at hk
    by_cases hkey : k = auxid
    · rw [if_pos hkey] at hk
      exact .inl ⟨hkey, (Option.some.inj hk).symm⟩
    · rw [if_neg hkey] at hk
      exact .inr ⟨hkey, hk⟩
  constructor
  · intro k k' id hk hk'
    rcases hold k id hk with ⟨rfl, rfl⟩ | ⟨-, hk⟩ <;> rcases hold k' _ hk' with ⟨rfl, hid⟩ | ⟨-, hk'⟩
    · rfl
    · exact absurd (h.allocated k' _ hk') (Nat.lt_irrefl _)
    · exact absurd (h.allocated k _ hk) (by omega)
    · exact h.distinct k k' id hk hk'
  · intro k id hk
    rcases hold k id hk with ⟨-, rfl⟩ | ⟨-, hk⟩
    · omega
    · have := h.allocated k id hk
      omega

theorem headed_insert {s s' : Chan} {auxid : Auxid} {id : ℕ} (h : s'.chan.conns = s.chan.conns.insert auxid id) :
    s'.Headed ↔ auxid = 0 ∨ (s.chan.conns.find? 0).isSome := by
  have hsome : s'.chan.conns.find? auxid = some id := by rw [h, Omap.find?_insert, if_pos rfl]
  have hne : s'.chan.conns.entries ≠ [] := fun hempty => by
    rw [Omap.entries_eq_nil.mp hempty] at hsome
    cases hsome
  simp only [Headed, hne, false_or]
  by_cases hauxid : auxid = 0
  · simp [← hauxid, hsome]
  · rw [h, Omap.find?_insert, if_neg (Ne.symm hauxid)]
    simp [hauxid]

/-- The main connection is there if any is. -/
theorem Headed.isSome {s : Chan} (h : s.Headed) {k : Auxid} (hk : (s.chan.conns.find? k).isSome) :
    (s.chan.conns.find? 0).isSome := by
  rcases h with hempty | hmain
  · rw [Omap.entries_eq_nil.mp hempty] at hk
    cases hk
  · exact hmain

/-- What is left of the connections when some go. -/
theorem headed_filter {s s' : Chan} {p : ℕ → Bool} (h : s.Headed)
    (hconns : s'.chan.conns = s.chan.conns.filter fun _ id => !p id) :
    s'.Headed ↔ ((∃ m, s.chan.conns.find? 0 = some m ∧ p m = true) → ∀ e ∈ s.chan.conns.entries, p e.2 = true) := by
  have hempty : s'.chan.conns.entries = [] ↔ ∀ e ∈ s.chan.conns.entries, p e.2 = true := by
    rw [hconns]
    simp [Omap.filter]
  have hmain : (s'.chan.conns.find? 0).isSome ↔ ∃ m, s.chan.conns.find? 0 = some m ∧ p m = false := by
    rw [hconns, Omap.find?_filter, Option.isSome_iff_exists]
    simp [Option.filter_eq_some_iff]
  unfold Headed
  rw [hempty, hmain]
  rcases h with hnone | hsome
  · simp [hnone]
  · obtain ⟨m, hm⟩ := Option.isSome_iff_exists.mp hsome
    cases hp : p m with
    | false => simp [hm, hp]
    | true => simp [hm, hp]

/-- The first id that is free is the one looked at first, where there are no
connections. -/
theorem nextAuxid_of_empty {conns : Omap Auxid ℕ} (h : ∀ k, conns.find? k = none) (auxid : Auxid) :
    Crofchan.nextAuxid conns 256 auxid = (255, auxid) := by
  simp [Crofchan.nextAuxid, h]

theorem handleClosed_spec {s : Chan} {id : ℕ} {r : ConnHeap × Crofchan} (hs : s.Intact)
    (hclosed : s.chan.handleClosed s.heap id = some r) : r.1.next = s.heap.next ∧
    (∀ k i, r.2.conns.find? k = some i → s.chan.conns.find? k = some i) ∧
    (s.Headed → (Headed ⟨r.1, r.2⟩ ↔ Ok s (.handleClosed id))) := by
  unfold Crofchan.handleClosed at hclosed
  split_ifs at hclosed with hself haux
  · have hnodup : (s.chan.conns.entries.map Prod.snd).Nodup := Omap.nodup_values hs.distinct
    split at hclosed
    next => cases hclosed
    next h' hclose =>
      obtain rfl := Option.some.inj hclosed
      have hstuck : s.Stuck := (Crofchan.closeAll_spec hnodup hclose).2.mp rfl
      refine ⟨Crofchan.next_closeAll hclose, fun k i hk => hk, fun hheaded => ?_⟩
      exact iff_of_true hheaded fun _ _ => .inl hstuck
    next h' hclose =>
      obtain rfl := Option.some.inj hclosed
      obtain ⟨hpassive, hstuck⟩ := Crofchan.closeAll_spec hnodup hclose
      have hfree : ¬ s.Stuck := fun h => by simpa using hstuck.mpr h
      refine ⟨Crofchan.next_closeAll hclose, fun k i hk => ?_, fun hheaded => ?_⟩
      · rw [Omap.find?_filter, Option.filter_eq_some_iff] at hk
        exact hk.1
      · rw [headed_filter (p := fun i => (h'.conn i).passive) hheaded rfl]
        simp [Ok, hself, hfree, hpassive]
  · obtain rfl := Option.some.inj hclosed
    refine ⟨rfl, fun k i hk => ?_, fun hheaded => ?_⟩
    · rw [Omap.find?_erase] at hk
      split_ifs at hk
      exact hk
    · refine iff_of_true ?_ fun h => absurd h hself
      rcases hheaded with hempty | hmain
      · refine .inl (Omap.entries_eq_nil.mpr fun k => ?_)
        rw [Omap.find?_erase, Omap.entries_eq_nil.mp hempty]
        split_ifs <;> rfl
      · refine .inr ?_
        rw [Omap.find?_erase, if_neg (Ne.symm hself)]
        exact hmain
  · obtain rfl := Option.some.inj hclosed
    exact ⟨rfl, fun k i hk => hk, fun hheaded => iff_of_true hheaded fun h => absurd h hself⟩

/-- What a step does to the connections: it adds one, or leaves some of them. -/
theorem step_cases {s s' : Chan} {a : Act} (hs : s.Intact) (hstep : s.step a = some s') :
    (∃ auxid, s'.chan.conns = s.chan.conns.insert auxid s.heap.next ∧ s'.heap.next = s.heap.next + 1 ∧
      (s.Headed → (Ok s a ↔ auxid = 0 ∨ (s.chan.conns.find? 0).isSome))) ∨
    (s'.heap.next = s.heap.next ∧ (∀ k id, s'.chan.conns.find? k = some id → s.chan.conns.find? k = some id) ∧
      (s.Headed → (s'.Headed ↔ Ok s a))) := by
  have hkept : ∀ {s' : Chan} {a : Act}, s'.heap.next = s.heap.next → s'.chan.conns = s.chan.conns → (s.Headed → Ok s a) →
      s'.heap.next = s.heap.next ∧ (∀ k id, s'.chan.conns.find? k = some id → s.chan.conns.find? k = some id) ∧
        (s.Headed → (s'.Headed ↔ Ok s a)) := by
    intro s' a hnext hconns hok
    refine ⟨hnext, fun k id hk => hconns ▸ hk, fun hheaded => iff_of_true ?_ (hok hheaded)⟩
    unfold Headed
    rw [hconns]
    exact hheaded
  have hcleared : ∀ {s' : Chan} {a : Act}, s'.heap.next = s.heap.next → s'.chan.conns = .empty → Ok s a →
      s'.heap.next = s.heap.next ∧ (∀ k id, s'.chan.conns.find? k = some id → s.chan.conns.find? k = some id) ∧
        (s.Headed → (s'.Headed ↔ Ok s a)) := by
    intro s' a hnext hconns hok
    refine ⟨hnext, fun k id hk => by simp [hconns] at hk, fun _ => iff_of_true (.inl ?_) hok⟩
    rw [hconns]
    rfl
  cases a with
  | addConn =>
    simp only [step, locked] at hstep
    split_ifs at hstep
    obtain rfl := Option.some.inj hstep
    by_cases hfull : (Crofchan.nextAuxid s.chan.conns 256 s.chan.lastAuxid).1 = 0
    · refine .inr (hkept ?_ ?_ fun hheaded => ?_)
      · simp [Crofchan.addConn, hfull]
      · simp [Crofchan.addConn, hfull]
      · rcases hheaded with hempty | hmain
        · rw [nextAuxid_of_empty (Omap.entries_eq_nil.mp hempty)] at hfull
          cases hfull
        · exact .inr hmain
    · refine .inl ⟨(Crofchan.nextAuxid s.chan.conns 256 s.chan.lastAuxid).2, ?_, ?_, fun hheaded => ?_⟩
      · simp [Crofchan.addConn, Crofchan.create, hfull]
      · simp [Crofchan.addConn, Crofchan.create, hfull, ConnHeap.alloc]
      · rcases hheaded with hempty | hmain
        · rw [nextAuxid_of_empty (Omap.entries_eq_nil.mp hempty)]
          exact Iff.rfl
        · exact iff_of_true (.inr hmain) (.inr hmain)
  | addConnAs auxid =>
    simp only [step, locked] at hstep
    split_ifs at hstep
    obtain rfl := Option.some.inj hstep
    refine .inl ⟨auxid, ?_, ?_, fun _ => Iff.rfl⟩
    · unfold Crofchan.addConnAs
      split <;> rfl
    · unfold Crofchan.addConnAs
      split <;> rfl
  | addConnPtr conn =>
    cases conn with
    | none =>
      obtain rfl := Option.some.inj hstep
      exact .inr (hkept rfl rfl fun _ => trivial)
    | some c =>
      simp only [step, locked] at hstep
      split_ifs at hstep
      obtain rfl := Option.some.inj hstep
      refine .inl ⟨c.auxid, ?_, ?_, fun _ => Iff.rfl⟩
      · simp [Crofchan.attach, ConnHeap.alloc]
      · unfold Crofchan.attach
        dsimp only
        split <;> rfl
  | setConn auxid =>
    simp only [step, locked] at hstep
    split_ifs at hstep
    obtain rfl := Option.some.inj hstep
    unfold Crofchan.setConn
    cases hk : s.chan.conns.find? auxid with
    | none => exact .inl ⟨auxid, rfl, rfl, fun _ => Iff.rfl⟩
    | some id => exact .inr (hkept rfl rfl fun hheaded => .inr (hheaded.isSome (k := auxid) (by simp [hk])))
  | dropConn auxid =>
    simp only [step, locked] at hstep
    split_ifs at hstep
    obtain rfl := Option.some.inj hstep
    unfold Crofchan.dropConn
    by_cases hauxid : auxid = 0
    · rw [if_pos hauxid]
      exact .inr (hcleared (Crofchan.next_foldl_release _ _) rfl trivial)
    · rw [if_neg hauxid]
      cases hk : s.chan.conns.find? auxid with
      | none => exact .inr (hkept rfl rfl fun _ => trivial)
      | some id =>
        refine .inr ⟨rfl, fun k i hki => ?_, fun hheaded => iff_of_true (.inr ?_) trivial⟩
        · simp only [Omap.find?_erase] at hki
          split_ifs at hki
          exact hki
        · simp only [Omap.find?_erase, if_neg (Ne.symm hauxid)]
          exact hheaded.isSome (k := auxid) (by simp [hk])
  | clear =>
    simp only [step, locked] at hstep
    split_ifs at hstep
    obtain rfl := Option.some.inj hstep
    exact .inr (hcleared (Crofchan.next_foldl_release _ _) rfl trivial)
  | handleEstablished id v =>
    simp only [step] at hstep
    split_ifs at hstep
    obtain rfl := Option.some.inj hstep
    refine .inr (hkept rfl ?_ fun _ => trivial)
    unfold Crofchan.handleEstablished
    split <;> rfl
  | handleClosed id =>
    simp only [step] at hstep
    split_ifs at hstep
    obtain ⟨r, hr, rfl⟩ := Option.map_eq_some_iff.mp hstep
    exact .inr (handleClosed_spec hs hr)
  | conn id c =>
    simp only [step] at hstep
    split_ifs at hstep
    obtain rfl := Option.some.inj hstep
    exact .inr (hkept rfl rfl fun _ => trivial)

theorem Intact.step {s s' : Chan} {a : Act} (hs : s.Intact) (hstep : s.step a = some s') : s'.Intact := by
  rcases step_cases hs hstep with ⟨auxid, hconns, hnext, -⟩ | ⟨hnext, hsub, -⟩
  · exact hs.insert hnext hconns
  · exact hs.sub hnext.ge hsub

theorem headed_step {s s' : Chan} {a : Act} (hs : s.Intact) (hheaded : s.Headed) (hstep : s.step a = some s') :
    s'.Headed ↔ Ok s a := by
  rcases step_cases hs hstep with ⟨auxid, hconns, -, hok⟩ | ⟨-, -, hok⟩
  · rw [headed_insert hconns, hok hheaded]
  · exact hok hheaded

/-- A message is sent only where it can be. -/
def CallOk (s : Chan) : Call → Prop
  | .op a => Ok s a
  | .sendMessage auxid _ => ∃ id, s.CanSend auxid id

theorem answers_iff {s s' : Chan} {c : Call} (hs : s.Intact) (hheaded : s.Headed) (hcall : s.call c = some s') :
    s.Answers c s' ↔ s.CallOk c := by
  cases c with
  | op a =>
    refine Iff.trans ?_ (headed_step hs hheaded hcall)
    constructor
    · exact fun h => tells_iff.mp h.isEstablished
    · exact fun h => ⟨tells_iff.mpr h, fun _ _ hsend => by cases hsend⟩
  | sendMessage auxid ts =>
    obtain rfl := Option.some.inj hcall
    constructor
    · exact fun h => sends_iff.mp (h.sendMessage auxid ts rfl)
    · intro h
      refine ⟨tells_iff.mpr hheaded, fun auxid' ts' hsend => ?_⟩
      cases hsend
      exact sends_iff.mpr h

theorem Intact.call {s s' : Chan} {c : Call} (hs : s.Intact) (hcall : s.call c = some s') : s'.Intact := by
  cases c with
  | op a => exact hs.step hcall
  | sendMessage auxid ts =>
    obtain rfl := Option.some.inj hcall
    exact hs

/-- **A channel says after every call of a run whether it is up, and sends or
refuses accordingly, exactly when no call leaves connections without the main
one, and no message has to be refused.** -/
theorem answers_iff_meets {t : Chan} {cs : List Call} (h : Runs.run call new cs = some t) :
    Runs.Along call Answers new cs ↔ Runs.Meets call CallOk new cs := by
  have hhere : ∀ s c s', Intact s → Headed s → s.call c = some s' → (s.Answers c s' ↔ s.CallOk c) :=
    fun s c s' hs hheaded hcall => answers_iff hs hheaded hcall
  refine Runs.along_iff_meets_of_keep (fun s c s' hs hcall => hs.call hcall) hhere ?_ intact_new (.inl rfl) h
  intro s c s' hs hheaded hcall hok
  exact tells_iff.mp ((hhere s c s' hs hheaded hcall).mpr hok).isEstablished

/-- The main connection and then an auxiliary one, both accepted; the main one is
established, and a message sent on the other. -/
def accepted : List Call :=
  [.op (.addConnPtr (some ⟨0, 7, Openflow13.OFP_VERSION, true, true⟩)),
    .op (.addConnPtr (some ⟨1, 7, Openflow13.OFP_VERSION, true, true⟩)),
    .op (.handleEstablished 0 Openflow13.OFP_VERSION), .sendMessage 1 none]

theorem answers_iff_meets_accepted : ∃ t, Runs.run call new accepted = some t ∧
    t.chan.sendMessage t.heap 1 none = .ok ⟨1, none⟩ ∧ Runs.Along call Answers new accepted := by
  refine ⟨_, rfl, by decide +kernel, (answers_iff_meets rfl).mpr ?_⟩
  exact ⟨.inl rfl, .inr (by decide +kernel), trivial,
    ⟨1, ⟨0, by decide +kernel, by decide +kernel⟩, by decide +kernel, by decide +kernel⟩, trivial⟩

/-- The auxiliary connection first; and a message for a channel without connections. -/
theorem isEstablished_throws : ∃ t, Runs.run call new [.op (.addConnAs 1)] = some t ∧
    t.chan.isEstablished t.heap = .error .outOfRange ∧ ¬ new.Answers (.op (.addConnAs 1)) t ∧
    new.chan.sendMessage new.heap 0 none = .error .exception ∧ ¬ new.Answers (.sendMessage 0 none) new := by
  refine ⟨_, rfl, by decide +kernel, fun h => ?_, by decide +kernel, fun h => ?_⟩
  · obtain ⟨b, hb, -⟩ := h.isEstablished
    cases hb
  · obtain ⟨id, -, hconn, -⟩ := sends_iff.mp (h.sendMessage 0 none rfl)
    cases hconn

end Chan

end RoflCommon
