/-
The datapaths attached to a controller, each with the connections it has opened.

A connection is handed over to the datapath object of its dpid when it is
established; it has been accepted, and has its dpid and auxiliary id from the
negotiation. Where the channel of a datapath is held up (`Crofchan.blocked`),
a call that needs its lock does not return.

A connection that is superseded is let go, but not closed, as those are that
`drop_conn` lets go: until the timer for `conns_deletion` destroys it, which is
left out here, its peer is heard and answered (`sound_iff_meets`).
-/
import RoflCommon.Crofchan
import RoflCommon.Lib.Runs

namespace RoflCommon

structure Crofdpt where
  dpid : UInt64
  chan : Crofchan

/-- `crofbase`, as far as the datapaths go. -/
structure Datapaths where
  heap : ConnHeap
  rofdpts : Omap ℕ Crofdpt
  rofdptsDeletion : List Crofdpt
  /-- The connections that have been superseded by one of the same dpid and
  auxiliary id while they reported to a channel. -/
  replaced : ℕ → Bool

namespace Datapaths

def new : Datapaths := ⟨.empty, .empty, [], fun _ => false⟩

/-! ## The datapath objects -/

/-- `crofdpt_find_by_dpid`. -/
def findDpt (s : Datapaths) (dpid : UInt64) : Option ℕ :=
  (s.rofdpts.entries.find? fun e => e.2.dpid = dpid).map Prod.fst

/-- `has_dpt`. -/
def hasDpt (s : Datapaths) (dpid : UInt64) : Bool := (s.findDpt dpid).isSome

/-- `add_dpt`. The constructor leaves the dpid as it finds the memory. -/
def addDpt (s : Datapaths) (junk : UInt64) : Datapaths × ℕ :=
  let dptid := s.rofdpts.firstFree
  ({ s with rofdpts := s.rofdpts.insert dptid ⟨junk, .new⟩ }, dptid)

/-- `set_dpt` of a dpid. -/
def setDptOf (s : Datapaths) (dpid junk : UInt64) : Datapaths × ℕ :=
  match s.findDpt dpid with
  | some dptid => (s, dptid)
  | none => s.addDpt junk

/-- `set_dpt` of an internal id. -/
def setDpt (s : Datapaths) (dptid : ℕ) (junk : UInt64) : Datapaths × Crofdpt :=
  match s.rofdpts.find? dptid with
  | some dpt => (s, dpt)
  | none => ({ s with rofdpts := s.rofdpts.insert dptid ⟨junk, .new⟩ }, ⟨junk, .new⟩)

/-- `crofdpt::add_conn` of a connection on the heap. -/
def attach (s : Datapaths) (dptid : ℕ) (dpt : Crofdpt) (id : ℕ) : Option Datapaths :=
  if dpt.chan.blocked then none
  else
    let (heap, chan) := dpt.chan.attach dptid s.heap id
    some { s with heap, rofdpts := s.rofdpts.insert dptid ⟨(s.heap.conn id).dpid, chan⟩ }

/-- `drop_dpt`. -/
def dropDpt (s : Datapaths) (dptid : ℕ) : Option Datapaths :=
  match s.rofdpts.find? dptid with
  | none => some s
  | some dpt =>
    if dpt.chan.blocked then none
    else
      let (heap, chan) := dpt.chan.clear s.heap
      some { s with
        heap
        rofdpts := s.rofdpts.erase dptid
        rofdptsDeletion := s.rofdptsDeletion ++ [{ dpt with chan }] }

/-! ## The connections -/

/-- A connection that is there now supersedes those of the same dpid and
auxiliary id. -/
def supersede (s : Datapaths) (c : ChanConn) (id : ℕ) : Bool :=
  s.replaced id || (decide (id < s.heap.next) && (s.heap.env id).isSome && decide ((s.heap.conn id).dpid = c.dpid) &&
    decide ((s.heap.conn id).auxid = c.auxid))

/-- `handle_established` of a connection in `MODE_CONTROLLER`. -/
def handleEstablished (s : Datapaths) (c : ChanConn) (junk : UInt64) : Option Datapaths :=
  let id := s.heap.next
  let s' := { s with heap := s.heap.alloc c none, replaced := s.supersede c }
  let (s', dptid) := if s'.hasDpt c.dpid then s'.setDptOf c.dpid junk else s'.addDpt junk
  let (s', dpt) := s'.setDpt dptid junk
  s'.attach dptid dpt id

/-- The peer is gone: `handle_closed` of the channel and, where the main
connection is concerned and the channel gets through with it, of the datapath
and of `crofbase`. -/
def handleClosed (s : Datapaths) (id : ℕ) : Option Datapaths :=
  let s := { s with heap := s.heap.down id }
  match s.heap.env id with
  | none => some s
  | some dptid =>
    match s.rofdpts.find? dptid with
    | none => some s
    | some dpt =>
      match dpt.chan.handleClosed s.heap id with
      | none => none
      | some (heap, chan) =>
        let s' := { s with heap, rofdpts := s.rofdpts.insert dptid { dpt with chan } }
        if (s.heap.conn id).auxid = 0 ∧ ¬ chan.blocked then s'.dropDpt dptid else some s'

inductive Act
  /-- A connection with this dpid, auxiliary id and version is established. -/
  | established (dpid : UInt64) (auxid : Auxid) (version : UInt8) (junk : UInt64)
  | closed (id : ℕ)
  | dropDpt (dptid : ℕ)
deriving DecidableEq

def step (s : Datapaths) : Act → Option Datapaths
  | .established dpid auxid version junk => s.handleEstablished ⟨auxid, dpid, version, true, true⟩ junk
  | .closed id => if id < s.heap.next then s.handleClosed id else none
  | .dropDpt dptid => s.dropDpt dptid

/-! ## What should hold -/

/-- The connection is in the channel of the datapath of its dpid, under its own
auxiliary id. -/
def AtHome (s : Datapaths) (id : ℕ) : Prop :=
  ∃ dptid dpt, s.rofdpts.find? dptid = some dpt ∧ dpt.dpid = (s.heap.conn id).dpid ∧
    dpt.chan.conns.find? (s.heap.conn id).auxid = some id

/-- No message is sent on the connection, and none that comes in on it gets any
further. -/
def Silent (s : Datapaths) (id : ℕ) : Prop :=
  s.heap.env id = none ∧ ∀ dptid dpt auxid ts, s.rofdpts.find? dptid = some dpt →
    dpt.chan.sendMessage s.heap auxid ts ≠ .ok ⟨id, ts⟩

/-- One datapath object for each dpid, every connection that is established with
its own, unless it is superseded: such a one is scheduled for deletion, once, and
silent. -/
structure Kept (s : Datapaths) : Prop where
  single : ∀ d d' p p', s.rofdpts.find? d = some p → s.rofdpts.find? d' = some p' → p.dpid = p'.dpid → d = d'
  atHome : ∀ id < s.heap.next, (s.heap.conn id).established = true → s.replaced id = false → s.AtHome id
  replaced : ∀ id, s.replaced id = true → s.heap.connsDeletion.count id = 1 ∧ s.Silent id

/-- And nothing comes in on a connection that is superseded. -/
structure Sound (s : Datapaths) : Prop extends s.Kept where
  closed : ∀ id, s.replaced id = true → (s.heap.conn id).established = false

/-- No connection comes in the place of one that is still open. -/
def Ok (s : Datapaths) : Act → Prop
  | .established dpid auxid _ _ => ∀ id < s.heap.next, (s.heap.env id).isSome = true → (s.heap.conn id).dpid = dpid →
      (s.heap.conn id).auxid = auxid → (s.heap.conn id).established = false
  | _ => True

/-! ## What every step keeps -/

/-- In a channel that is held up, the main connection does not report to it any
more. -/
structure Inv (s : Datapaths) : Prop where
  single : ∀ d d' p p', s.rofdpts.find? d = some p → s.rofdpts.find? d' = some p' → p.dpid = p'.dpid → d = d'
  conns : ∀ d p, s.rofdpts.find? d = some p → ∀ k c, p.chan.conns.find? k = some c →
    c < s.heap.next ∧ (s.heap.conn c).auxid = k ∧ (s.heap.conn c).dpid = p.dpid ∧ s.replaced c = false ∧
      (s.heap.env c = some d ∨ p.chan.blocked = true)
  blocked : ∀ d p, s.rofdpts.find? d = some p → p.chan.blocked = true → ∀ c, p.chan.conns.find? 0 = some c →
    s.heap.env c = none
  home : ∀ c d, s.heap.env c = some d → c < s.heap.next ∧
    ∃ p, s.rofdpts.find? d = some p ∧ p.chan.conns.find? (s.heap.conn c).auxid = some c
  passive : ∀ c < s.heap.next, (s.heap.conn c).passive = true
  away : ∀ c < s.heap.next, s.heap.env c = none → (s.heap.conn c).established = true → s.replaced c = true
  attached : ∀ c, s.heap.env c ≠ none → c ∉ s.heap.connsDeletion
  bound : ∀ c ∈ s.heap.connsDeletion, c < s.heap.next
  replaced : ∀ c, s.replaced c = true → c < s.heap.next ∧ s.heap.env c = none ∧ s.heap.connsDeletion.count c = 1

theorem inv_new : Inv new where
  single _ _ _ _ h := by cases h
  conns _ _ h := by cases h
  blocked _ _ h := by cases h
  home _ _ h := by cases h
  passive _ h := absurd h (Nat.not_lt_zero _)
  away _ h := absurd h (Nat.not_lt_zero _)
  attached _ _ h := by cases h
  bound _ h := by cases h
  replaced _ h := by cases h

theorem Inv.kept {s : Datapaths} (h : s.Inv) : s.Kept where
  single := h.single
  atHome c hc hestablished hreplaced := by
    cases henv : s.heap.env c with
    | none => simp [h.away c hc henv hestablished] at hreplaced
    | some d =>
      obtain ⟨-, p, hp, hconn⟩ := h.home c d henv
      exact ⟨d, p, hp, (h.conns d p hp _ c hconn).2.2.1.symm, hconn⟩
  replaced c hc := by
    obtain ⟨-, henv, hcount⟩ := h.replaced c hc
    refine ⟨hcount, henv, fun d p auxid ts hp hsend => ?_⟩
    -- what is sent on is in the channel, and so not superseded
    have hconn : p.chan.conns.find? auxid = some c := by
      unfold Crofchan.sendMessage at hsend
      split at hsend
      next => cases hsend
      next => cases hsend
      next =>
        split at hsend
        next => cases hsend
        next id hid =>
          split_ifs at hsend
          obtain rfl : id = c := by simpa using hsend
          exact hid
    obtain ⟨-, -, -, hnot, -⟩ := h.conns d p hp auxid c hconn
    simp [hc] at hnot

/-- Some connections are let go. A channel keeps one of these only if it is held
up. -/
theorem Inv.letGo {s s' : Datapaths} {ids : List ℕ} (h : s.Inv) (hgo : Crofchan.LetsGo s.heap s'.heap ids)
    (hnodup : ids.Nodup)
    (hids : ∀ c ∈ ids, s.heap.env c ≠ none ∧ ((s'.heap.conn c).established = false ∨ s'.replaced c = true))
    (hreplaced : ∀ c, s'.replaced c = true ↔ s.replaced c = true ∨ (c ∈ ids ∧ s'.replaced c = true))
    (hsub : ∀ d p', s'.rofdpts.find? d = some p' → ∃ p, s.rofdpts.find? d = some p ∧ p'.dpid = p.dpid ∧
      (p.chan.blocked = true → p'.chan.blocked = true) ∧ ∀ k c, p'.chan.conns.find? k = some c →
        p.chan.conns.find? k = some c ∧ (c ∈ ids → p'.chan.blocked = true ∧ s'.replaced c = false))
    (hblocked : ∀ d p', s'.rofdpts.find? d = some p' → p'.chan.blocked = true → ∀ c, p'.chan.conns.find? 0 = some c →
      s'.heap.env c = none)
    (hkept : ∀ d p c, s.rofdpts.find? d = some p → p.chan.conns.find? (s.heap.conn c).auxid = some c →
      s.heap.env c = some d → c ∉ ids →
      ∃ p', s'.rofdpts.find? d = some p' ∧ p'.chan.conns.find? (s.heap.conn c).auxid = some c) : s'.Inv where
  single d d' p p' hp hp' heq := by
    obtain ⟨q, hq, hdpid, -⟩ := hsub d p hp
    obtain ⟨q', hq', hdpid', -⟩ := hsub d' p' hp'
    exact h.single d d' q q' hq hq' (by rw [← hdpid, ← hdpid', heq])
  conns d p' hp' k c hk := by
    obtain ⟨p, hp, hdpid, hstays, hconns⟩ := hsub d p' hp'
    obtain ⟨hk, hlet⟩ := hconns k c hk
    obtain ⟨hlt, hauxid, hsame, hnot, henv⟩ := h.conns d p hp k c hk
    refine ⟨hgo.next ▸ hlt, (hgo.auxid c).trans hauxid, ?_, ?_, ?_⟩
    · rw [hgo.dpid, hsame, hdpid]
    · by_cases hc : c ∈ ids
      · exact (hlet hc).2
      · simpa [hnot, hc] using hreplaced c
    · by_cases hc : c ∈ ids
      · exact .inr (hlet hc).1
      · rw [hgo.env, if_neg hc]
        exact henv.imp id hstays
  blocked := hblocked
  home c d henv := by
    rw [hgo.env] at henv
    split_ifs at henv with hc
    obtain ⟨hlt, p, hp, hconn⟩ := h.home c d henv
    rw [hgo.next, hgo.auxid]
    exact ⟨hlt, hkept d p c hp hconn henv hc⟩
  passive c hc := by
    rw [hgo.passive]
    exact h.passive c (hgo.next ▸ hc)
  away c hlt henv hestablished := by
    by_cases hc : c ∈ ids
    · rcases (hids c hc).2 with hdown | hsuperseded
      · simp [hdown] at hestablished
      · exact hsuperseded
    · rw [hgo.env, if_neg hc] at henv
      exact (hreplaced c).mpr (.inl (h.away c (hgo.next ▸ hlt) henv (hgo.established c hestablished)))
  attached c henv := by
    rw [hgo.env] at henv
    split_ifs at henv with hc
    · exact absurd rfl henv
    · rw [hgo.connsDeletion, List.mem_append, not_or]
      exact ⟨h.attached c henv, hc⟩
  bound c hc := by
    rw [hgo.connsDeletion, List.mem_append] at hc
    rw [hgo.next]
    rcases hc with hc | hc
    · exact h.bound c hc
    · obtain ⟨d, hd⟩ := Option.ne_none_iff_exists'.mp (hids c hc).1
      exact (h.home c d hd).1
  replaced c hc := by
    rw [hgo.next, hgo.env, hgo.connsDeletion, List.count_append]
    rcases (hreplaced c).mp hc with hold | ⟨hmem, -⟩
    · obtain ⟨hlt, henv, hcount⟩ := h.replaced c hold
      have hnot : c ∉ ids := fun hmem => (hids c hmem).1 henv
      rw [if_neg hnot, hcount, List.count_eq_zero_of_not_mem hnot]
      exact ⟨hlt, henv, rfl⟩
    · obtain ⟨d, hd⟩ := Option.ne_none_iff_exists'.mp (hids c hmem).1
      have hnot : c ∉ s.heap.connsDeletion := h.attached c (hids c hmem).1
      rw [if_pos hmem, List.count_eq_zero_of_not_mem hnot, List.count_eq_one_of_mem hnodup hmem]
      exact ⟨(h.home c d hd).1, rfl, rfl⟩

/-- The channel of one datapath lets some of its connections go. -/
theorem Inv.letGo_insert {s : Datapaths} {heap : ConnHeap} {ids : List ℕ} {d : ℕ} {p p' : Crofdpt} (h : s.Inv)
    (hp : s.rofdpts.find? d = some p) (hgo : Crofchan.LetsGo s.heap heap ids) (hnodup : ids.Nodup)
    (hids : ∀ c ∈ ids, s.heap.env c = some d ∧ (heap.conn c).established = false) (hdpid : p'.dpid = p.dpid)
    (hstays : p.chan.blocked = true → p'.chan.blocked = true)
    (hconns : ∀ k c, p'.chan.conns.find? k = some c → p.chan.conns.find? k = some c ∧ (c ∈ ids → p'.chan.blocked = true))
    (hblocked : p'.chan.blocked = true → ∀ c, p'.chan.conns.find? 0 = some c → heap.env c = none)
    (hkept : ∀ c, p.chan.conns.find? (s.heap.conn c).auxid = some c → c ∉ ids →
      p'.chan.conns.find? (s.heap.conn c).auxid = some c) :
    Inv { s with heap, rofdpts := s.rofdpts.insert d p' } := by
  have hnot : ∀ {d p k c}, s.rofdpts.find? d = some p → p.chan.conns.find? k = some c → s.replaced c = false :=
    fun hp hk => (h.conns _ _ hp _ _ hk).2.2.2.1
  refine h.letGo hgo hnodup (fun c hc => ⟨by simp [(hids c hc).1], .inl (hids c hc).2⟩) (fun c => by simp)
    (fun d' q' hq' => ?_) (fun d' q' hq' hstuck c hk => ?_) (fun d' q c hq hk henv hc => ?_)
  · rw [Omap.find?_insert] at hq'
    by_cases hd : d' = d
    · rw [if_pos hd] at hq'
      obtain rfl := Option.some.inj hq'
      subst hd
      refine ⟨p, hp, hdpid, hstays, fun k c hk => ?_⟩
      obtain ⟨hk, hlet⟩ := hconns k c hk
      exact ⟨hk, fun hc => ⟨hlet hc, hnot hp hk⟩⟩
    · rw [if_neg hd] at hq'
      refine ⟨q', hq', rfl, fun hb => hb, fun k c hk => ⟨hk, fun hc => ⟨?_, hnot hq' hk⟩⟩⟩
      rcases (h.conns d' q' hq' k c hk).2.2.2.2 with henv | hstuck
      · rw [(hids c hc).1] at henv
        exact absurd (Option.some.inj henv).symm hd
      · exact hstuck
  · rw [Omap.find?_insert] at hq'
    by_cases hd : d' = d
    · rw [if_pos hd] at hq'
      obtain rfl := Option.some.inj hq'
      exact hblocked hstuck c hk
    · rw [if_neg hd] at hq'
      rw [hgo.env, h.blocked d' q' hq' hstuck c hk]
      split_ifs <;> rfl
  · rw [Omap.find?_insert]
    by_cases hd : d' = d
    · subst hd
      obtain rfl : p = q := Option.some.inj (hp.symm.trans hq)
      exact ⟨p', if_pos rfl, hkept c hk hc⟩
    · exact ⟨q, by rw [if_neg hd, hq], hk⟩

/-- A connection is closed, and nothing else. -/
theorem Inv.down {s : Datapaths} (h : s.Inv) (id : ℕ) : Inv { s with heap := s.heap.down id } :=
  h.letGo (Crofchan.LetsGo.down s.heap id) .nil (fun c hc => by cases hc) (fun c => by simp)
    (fun d p hp => ⟨p, hp, rfl, fun hb => hb, fun k c hk => ⟨hk, fun hc => by cases hc⟩⟩)
    (fun d p hp hb c hk => h.blocked d p hp hb c hk) (fun d p c hp hk _ _ => ⟨p, hp, hk⟩)

theorem Inv.dropDpt {s s' : Datapaths} {dptid : ℕ} (h : s.Inv) (hdrop : s.dropDpt dptid = some s') : s'.Inv := by
  unfold Datapaths.dropDpt at hdrop
  cases hp : s.rofdpts.find? dptid with
  | none =>
    rw [hp] at hdrop
    obtain rfl := Option.some.inj hdrop
    exact h
  | some p =>
    rw [hp] at hdrop
    dsimp only at hdrop
    split_ifs at hdrop with hfree
    obtain rfl := Option.some.inj hdrop
    have hmem : ∀ c, c ∈ p.chan.conns.values ↔ ∃ k, p.chan.conns.find? k = some c := by
      intro c
      simp [Omap.values, Omap.find?_eq_some]
    have henv : ∀ c ∈ p.chan.conns.values, s.heap.env c = some dptid := by
      intro c hc
      obtain ⟨k, hk⟩ := (hmem c).mp hc
      exact (h.conns dptid p hp k c hk).2.2.2.2.resolve_right hfree
    have hnodup : p.chan.conns.values.Nodup := Omap.nodup_values fun k k' c hk hk' =>
      (h.conns dptid p hp k c hk).2.1.symm.trans (h.conns dptid p hp k' c hk').2.1
    have hgo : Crofchan.LetsGo s.heap (p.chan.clear s.heap).1 p.chan.conns.values := Crofchan.LetsGo.foldl_release _ _
    refine h.letGo hgo hnodup
      (fun c hc => ⟨by simp [henv c hc], .inl (Crofchan.established_foldl_release hc)⟩) (fun c => by simp)
      (fun d q hq => ?_) (fun d q hq hstuck c hk => ?_) (fun d q c hq hk hd hc => ?_)
    · rw [Omap.find?_erase] at hq
      split_ifs at hq with hne
      refine ⟨q, hq, rfl, fun hb => hb, fun k c hk => ⟨hk, fun hc => ⟨?_, (h.conns d q hq k c hk).2.2.2.1⟩⟩⟩
      rcases (h.conns d q hq k c hk).2.2.2.2 with henv' | hstuck
      · rw [henv c hc] at henv'
        exact absurd (Option.some.inj henv').symm hne
      · exact hstuck
    · rw [Omap.find?_erase] at hq
      split_ifs at hq with hne
      rw [hgo.env, h.blocked d q hq hstuck c hk]
      split_ifs <;> rfl
    · rw [Omap.find?_erase]
      by_cases hne : d = dptid
      · subst hne
        obtain rfl : p = q := Option.some.inj (hp.symm.trans hq)
        exact absurd ((hmem c).mpr ⟨_, hk⟩) hc
      · exact ⟨q, by rw [if_neg hne, hq], hk⟩

/-- What the channel does when one of its connections, down already, reports that
it is closed. -/
theorem Inv.closed {s s' : Datapaths} {id d : ℕ} {p : Crofdpt} {heap : ConnHeap} {chan : Crofchan} (h : s.Inv)
    (henv : s.heap.env id = some d) (hdown : (s.heap.conn id).established = false) (hp : s.rofdpts.find? d = some p)
    (hclosed : p.chan.handleClosed s.heap id = some (heap, chan))
    (hs' : s' = { s with heap, rofdpts := s.rofdpts.insert d { p with chan } }) : s'.Inv := by
  obtain ⟨hlt, q, hq, hhome⟩ := h.home id d henv
  obtain rfl : p = q := Option.some.inj (hp.symm.trans hq)
  have hpassive := h.passive id hlt
  subst hs'
  unfold Crofchan.handleClosed at hclosed
  split_ifs at hclosed with hmain haux
  · rw [hmain] at hhome
    have hfree : ¬ p.chan.blocked = true := fun hstuck => by
      simp [h.blocked d p hp hstuck id hhome] at henv
    obtain ⟨es, hentries, hes⟩ := Omap.entries_eq_cons Fin.zero_le hhome
    have hfirst : Crofchan.closeAll s.heap p.chan.conns.entries = Crofchan.closeAll (s.heap.retire id) es := by
      simp [hentries, Crofchan.closeAll, hpassive]
    rw [hfirst] at hclosed
    cases es with
    | nil =>
      -- the main connection is the only one
      simp only [Crofchan.closeAll, Option.some.injEq, Prod.mk.injEq] at hclosed
      obtain ⟨rfl, rfl⟩ := hclosed
      refine h.letGo_insert hp (Crofchan.LetsGo.retire s.heap id) (List.nodup_singleton id)
        (fun c hc => by obtain rfl := List.mem_singleton.mp hc; exact ⟨henv, hdown⟩) rfl (fun hb => hb)
        (fun k c hk => ?_) (fun hb => absurd hb hfree) (fun c hk hc => ?_)
      · simp only [Omap.find?_filter, Option.filter_eq_some_iff] at hk
        have := h.passive c (h.conns d p hp k c hk.1).1
        simp [ConnHeap.retire, ConnHeap.setEnv, this] at hk
      · have hmem := Omap.find?_eq_some.mp hk
        rw [hentries, List.mem_singleton, Prod.mk.injEq] at hmem
        simp [hmem.2] at hc
    | cons e es =>
      obtain ⟨k, c⟩ := e
      have hk : p.chan.conns.find? k = some c := Omap.find?_eq_some.mpr (by simp [hentries])
      have hne : k ≠ 0 := hes (k, c) List.mem_cons_self
      obtain ⟨hlt', hauxid, -, -, henv'⟩ := h.conns d p hp k c hk
      have hother : c ≠ id := fun heq => hne (by rw [← hauxid, heq, hmain])
      have hreports : (s.heap.retire id).env c = some d := by
        rw [Crofchan.env_retire hother]
        exact henv'.resolve_right hfree
      have hstuck : Crofchan.closeAll (s.heap.retire id) ((k, c) :: es) = some ((s.heap.retire id).down c, true) := by
        have hauxid' : ((s.heap.retire id).conn c).auxid ≠ 0 := fun heq => hne (hauxid.symm.trans heq)
        have hpassive' : ((s.heap.retire id).conn c).passive = true := h.passive c hlt'
        simp [Crofchan.closeAll, hne, hreports, hauxid', hpassive']
      rw [hstuck] at hclosed
      simp only [Option.some.injEq, Prod.mk.injEq] at hclosed
      obtain ⟨rfl, rfl⟩ := hclosed
      have hgo : Crofchan.LetsGo s.heap ((s.heap.retire id).down c) [id] := by
        simpa using (Crofchan.LetsGo.retire s.heap id).trans (Crofchan.LetsGo.down _ c)
      refine h.letGo_insert hp hgo (List.nodup_singleton id) (fun i hi => ?_) rfl (fun _ => rfl)
        (fun k c hk => ⟨hk, fun _ => rfl⟩) (fun _ i hi => ?_) (fun i hi _ => hi)
      · obtain rfl := List.mem_singleton.mp hi
        refine ⟨henv, ?_⟩
        have hgone := (Crofchan.LetsGo.down (s.heap.retire i) c).established i
        have hdown' : ((s.heap.retire i).conn i).established = false := hdown
        simpa [hdown'] using hgone
      · obtain rfl : id = i := Option.some.inj (hhome.symm.trans hi)
        rw [hgo.env, if_pos (List.mem_singleton.mpr rfl)]
  · obtain ⟨rfl, rfl⟩ : heap = _ ∧ chan = _ := by simpa [eq_comm] using hclosed
    have hfree := haux.2.1
    refine h.letGo_insert hp (Crofchan.LetsGo.retire s.heap id) (List.nodup_singleton id)
      (fun c hc => by obtain rfl := List.mem_singleton.mp hc; exact ⟨henv, hdown⟩) rfl (fun hb => hb)
      (fun k c hk => ?_) (fun hb => absurd hb hfree) (fun c hk hc => ?_)
    · simp only [Omap.find?_erase] at hk
      split_ifs at hk with hne
      refine ⟨hk, fun hc => ?_⟩
      obtain rfl := List.mem_singleton.mp hc
      exact absurd (h.conns d p hp k c hk).2.1.symm hne
    · simp only [Omap.find?_erase]
      rw [if_neg, hk]
      intro heq
      rw [heq, hhome] at hk
      exact hc (by simpa using (Option.some.inj hk).symm)
  · obtain ⟨rfl, rfl⟩ : heap = _ ∧ chan = _ := by simpa [eq_comm] using hclosed
    exact h.letGo_insert hp (Crofchan.LetsGo.foldl_release s.heap []) .nil (fun c hc => by cases hc) rfl (fun hb => hb)
      (fun k c hk => ⟨hk, fun hc => by cases hc⟩) (fun hb c hk => h.blocked d p hp hb c hk) (fun c hk _ => hk)

theorem Inv.handleClosed {s s' : Datapaths} {id : ℕ} (h : s.Inv) (hclosed : s.handleClosed id = some s') : s'.Inv := by
  have hinv := h.down id
  unfold Datapaths.handleClosed at hclosed
  dsimp only at hclosed
  split at hclosed
  next =>
    obtain rfl := Option.some.inj hclosed
    exact hinv
  next d henv =>
    split at hclosed
    next =>
      obtain rfl := Option.some.inj hclosed
      exact hinv
    next p hp =>
      split at hclosed
      next => cases hclosed
      next heap chan hchan =>
        have hafter := hinv.closed henv (Crofchan.established_down s.heap id) hp hchan rfl
        split_ifs at hclosed
        · exact hafter.dropDpt hclosed
        · obtain rfl := Option.some.inj hclosed
          exact hafter

/-- The datapath of the dpid, if there is one, is what `find_if` comes to. -/
theorem of_findDpt {s : Datapaths} {dpid : UInt64} {d : ℕ} (h : s.findDpt dpid = some d) :
    ∃ p, s.rofdpts.find? d = some p ∧ p.dpid = dpid := by
  obtain ⟨e, he, rfl⟩ := Option.map_eq_some_iff.mp h
  exact ⟨e.2, Omap.find?_eq_some.mpr (List.mem_of_find?_eq_some he), by simpa using List.find?_some he⟩

theorem of_findDpt_none {s : Datapaths} {dpid : UInt64} (h : s.findDpt dpid = none) {d : ℕ} {p : Crofdpt}
    (hp : s.rofdpts.find? d = some p) : p.dpid ≠ dpid := by
  have hnone := List.find?_eq_none.mp (Option.map_eq_none_iff.mp h) (d, p) (Omap.find?_eq_some.mp hp)
  simpa using hnone

/-- A new connection comes to the datapath `d`, whose place for it is free. -/
theorem Inv.add {s s' : Datapaths} {d : ℕ} {c : ChanConn} {p' : Crofdpt} (h : s.Inv)
    (hsame : ∀ p, s.rofdpts.find? d = some p →
      p.dpid = c.dpid ∧ p.chan.blocked = false ∧ p.chan.conns.find? c.auxid = none)
    (honly : ∀ d' p, s.rofdpts.find? d' = some p → p.dpid = c.dpid → d' = d) (hc : c.passive = true)
    (hnext : s'.heap.next = s.heap.next + 1) (hconn : ∀ i < s.heap.next, s'.heap.conn i = s.heap.conn i)
    (hnew : s'.heap.conn s.heap.next = c) (henv : ∀ i, i ≠ s.heap.next → s'.heap.env i = s.heap.env i)
    (hreports : s'.heap.env s.heap.next = some d) (hdeletion : s'.heap.connsDeletion = s.heap.connsDeletion)
    (hreplaced : s'.replaced = s.replaced) (hdpts : s'.rofdpts = s.rofdpts.insert d p') (hdpid : p'.dpid = c.dpid)
    (hblocked : p'.chan.blocked = false)
    (hconns : ∀ k i, p'.chan.conns.find? k = some i ↔ (k = c.auxid ∧ i = s.heap.next) ∨
      (k ≠ c.auxid ∧ ∃ p, s.rofdpts.find? d = some p ∧ p.chan.conns.find? k = some i)) : s'.Inv := by
  have hfind : ∀ d' q, s'.rofdpts.find? d' = some q → (d' = d ∧ q = p') ∨ (d' ≠ d ∧ s.rofdpts.find? d' = some q) := by
    intro d' q hq
    rw [hdpts, Omap.find?_insert] at hq
    split_ifs at hq with hd
    · exact .inl ⟨hd, (Option.some.inj hq).symm⟩
    · exact .inr ⟨hd, hq⟩
  have hunborn : ∀ i, s.replaced i = true → i < s.heap.next := fun i hi => (h.replaced i hi).1
  refine
    { single := fun d₁ d₂ p₁ p₂ h₁ h₂ heq => ?_
      conns := fun d' q hq k i hk => ?_
      blocked := fun d' q hq hstuck i hk => ?_
      home := fun i d' hi => ?_
      passive := fun i hi => ?_
      away := fun i hi hnone hestablished => ?_
      attached := fun i hi => ?_
      bound := fun i hi => ?_
      replaced := fun i hi => ?_ }
  · rcases hfind d₁ p₁ h₁ with ⟨rfl, rfl⟩ | ⟨hd₁, h₁⟩ <;> rcases hfind d₂ p₂ h₂ with ⟨rfl, rfl⟩ | ⟨hd₂, h₂⟩
    · rfl
    · exact (honly d₂ p₂ h₂ (heq ▸ hdpid)).symm
    · exact honly d₁ p₁ h₁ (heq.trans hdpid)
    · exact h.single d₁ d₂ p₁ p₂ h₁ h₂ heq
  · have hold : ∀ {d' q}, s.rofdpts.find? d' = some q → q.chan.conns.find? k = some i →
        i < s'.heap.next ∧ (s'.heap.conn i).auxid = k ∧ (s'.heap.conn i).dpid = q.dpid ∧ s'.replaced i = false ∧
          (s'.heap.env i = some d' ∨ q.chan.blocked = true) := by
      intro d' q hq hk
      obtain ⟨hlt, hauxid, hsame, hnot, hto⟩ := h.conns d' q hq k i hk
      rw [hconn i hlt, henv i hlt.ne, hreplaced]
      exact ⟨by omega, hauxid, hsame, hnot, hto⟩
    rcases hfind d' q hq with ⟨rfl, rfl⟩ | ⟨hd, hq⟩
    · rcases (hconns k i).mp hk with ⟨rfl, rfl⟩ | ⟨hk', p, hp, hki⟩
      · rw [hnew, hreports, hreplaced]
        refine ⟨by omega, rfl, hdpid.symm, ?_, .inl rfl⟩
        by_contra hnot
        exact absurd (hunborn _ (by simpa using hnot)) (Nat.lt_irrefl _)
      · obtain ⟨hdpid', hfree, -⟩ := hsame p hp
        simpa [hdpid', hfree, hdpid, hblocked] using hold hp hki
    · exact hold hq hk
  · rcases hfind d' q hq with ⟨rfl, rfl⟩ | ⟨hd, hq⟩
    · rw [hblocked] at hstuck
      cases hstuck
    · rw [henv i (h.conns d' q hq 0 i hk).1.ne]
      exact h.blocked d' q hq hstuck i hk
  · by_cases hi' : i = s.heap.next
    · subst hi'
      rw [hreports] at hi
      obtain rfl := Option.some.inj hi
      refine ⟨by omega, p', by rw [hdpts, Omap.find?_insert, if_pos rfl], ?_⟩
      rw [hnew]
      exact (hconns _ _).mpr (.inl ⟨rfl, rfl⟩)
    · rw [henv i hi'] at hi
      obtain ⟨hlt, p, hp, hhome⟩ := h.home i d' hi
      rw [hconn i hlt, hdpts]
      refine ⟨by omega, ?_⟩
      simp only [Omap.find?_insert]
      by_cases hd : d' = d
      · subst hd
        refine ⟨p', if_pos rfl, (hconns _ _).mpr (.inr ⟨fun heq => ?_, p, hp, hhome⟩)⟩
        rw [heq, (hsame p hp).2.2] at hhome
        cases hhome
      · exact ⟨p, by rw [if_neg hd, hp], hhome⟩
  · by_cases hi' : i = s.heap.next
    · rw [hi', hnew]
      exact hc
    · rw [hconn i (by omega)]
      exact h.passive i (by omega)
  · by_cases hi' : i = s.heap.next
    · rw [hi', hreports] at hnone
      cases hnone
    · rw [henv i hi'] at hnone
      rw [hconn i (by omega)] at hestablished
      rw [hreplaced]
      exact h.away i (by omega) hnone hestablished
  · rw [hdeletion]
    by_cases hi' : i = s.heap.next
    · intro hmem
      have := h.bound i hmem
      omega
    · rw [henv i hi'] at hi
      exact h.attached i hi
  · rw [hdeletion] at hi
    have := h.bound i hi
    omega
  · rw [hreplaced] at hi
    obtain ⟨hlt, hnone, hcount⟩ := h.replaced i hi
    rw [henv i hlt.ne, hdeletion]
    exact ⟨by omega, hnone, hcount⟩

/-- What is superseded is what the channel has in the place of the new one. -/
theorem Inv.supersede_iff {s : Datapaths} (h : s.Inv) {c : ChanConn} {i : ℕ} : s.supersede c i = true ↔
    s.replaced i = true ∨ ∃ d p, s.rofdpts.find? d = some p ∧ p.dpid = c.dpid ∧ s.heap.env i = some d ∧
      p.chan.conns.find? c.auxid = some i := by
  unfold supersede
  simp only [Bool.or_eq_true, Bool.and_eq_true, decide_eq_true_iff, Option.isSome_iff_exists]
  refine or_congr_right ⟨?_, ?_⟩
  · rintro ⟨⟨⟨-, d, henv⟩, hdpid⟩, hauxid⟩
    obtain ⟨-, p, hp, hhome⟩ := h.home i d henv
    have hsame := (h.conns d p hp _ i hhome).2.2.1
    exact ⟨d, p, hp, hsame.symm.trans hdpid, henv, hauxid ▸ hhome⟩
  · rintro ⟨d, p, hp, hdpid, henv, hk⟩
    obtain ⟨hlt, hauxid, hsame, -⟩ := h.conns d p hp _ i hk
    exact ⟨⟨⟨hlt, d, henv⟩, hsame.trans hdpid⟩, hauxid⟩

/-- The connection in the place of a new one makes room for it. -/
theorem Inv.makeRoom {s : Datapaths} {c : ChanConn} {d old : ℕ} {p : Crofdpt} (h : s.Inv)
    (hp : s.rofdpts.find? d = some p) (hdpid : p.dpid = c.dpid) (hfree : p.chan.blocked = false)
    (hold : p.chan.conns.find? c.auxid = some old) :
    Inv { s with
      heap := s.heap.retire old
      rofdpts := s.rofdpts.insert d { p with chan := { p.chan with conns := p.chan.conns.erase c.auxid } }
      replaced := s.supersede c } := by
  obtain ⟨hlt, hauxid, hsame, hnot, hto⟩ := h.conns d p hp _ old hold
  have henv : s.heap.env old = some d := hto.resolve_right (by simp [hfree])
  have hsuperseded : s.supersede c old = true := h.supersede_iff.mpr (.inr ⟨d, p, hp, hdpid, henv, hold⟩)
  have honly : ∀ i, s.supersede c i = true → s.replaced i = true ∨ i = old := by
    intro i hi
    rcases h.supersede_iff.mp hi with hi | ⟨d', p', hp', hdpid', -, hk⟩
    · exact .inl hi
    · obtain rfl := h.single d' d p' p hp' hp (hdpid'.trans hdpid.symm)
      obtain rfl : p' = p := Option.some.inj (hp'.symm.trans hp)
      exact .inr (Option.some.inj (hk.symm.trans hold))
  refine h.letGo (Crofchan.LetsGo.retire s.heap old) (List.nodup_singleton old)
    (fun i hi => by obtain rfl := List.mem_singleton.mp hi; exact ⟨by simp [henv], .inr hsuperseded⟩)
    (fun i => ⟨fun hi => (honly i hi).imp_right fun heq => ⟨List.mem_singleton.mpr heq, hi⟩, fun hi => ?_⟩)
    (fun d' q hq => ?_) (fun d' q hq hstuck i hk => ?_) (fun d' q i hq hk henv' hi => ?_)
  · exact hi.elim (fun hi => h.supersede_iff.mpr (.inl hi)) fun hi => hi.2
  · rw [Omap.find?_insert] at hq
    split_ifs at hq with hd
    · obtain rfl := Option.some.inj hq
      subst hd
      refine ⟨p, hp, rfl, fun hb => hb, fun k i hk => ?_⟩
      simp only [Omap.find?_erase] at hk
      split_ifs at hk with hne
      refine ⟨hk, fun hi => ?_⟩
      obtain rfl := List.mem_singleton.mp hi
      exact absurd ((h.conns d' p hp k i hk).2.1.symm.trans hauxid) hne
    · refine ⟨q, hq, rfl, fun hb => hb, fun k i hk => ⟨hk, fun hi => ?_⟩⟩
      obtain rfl := List.mem_singleton.mp hi
      obtain ⟨-, -, hsame', -⟩ := h.conns d' q hq k i hk
      exact absurd (h.single d' d q p hq hp (hsame'.symm.trans hsame)) hd
  · rw [Omap.find?_insert] at hq
    split_ifs at hq with hd
    · obtain rfl := Option.some.inj hq
      simp [hfree] at hstuck
    · rw [(Crofchan.LetsGo.retire s.heap old).env, h.blocked d' q hq hstuck i hk]
      split_ifs <;> rfl
  · rw [Omap.find?_insert]
    by_cases hd : d' = d
    · subst hd
      obtain rfl : p = q := Option.some.inj (hp.symm.trans hq)
      refine ⟨_, if_pos rfl, ?_⟩
      simp only [Omap.find?_erase]
      rw [if_neg, hk]
      intro heq
      rw [heq, hold] at hk
      exact hi (by simpa using (Option.some.inj hk).symm)
    · exact ⟨q, by rw [if_neg hd, hq], hk⟩

theorem Inv.attach {s m s' : Datapaths} {d : ℕ} {c : ChanConn} {p : Crofdpt} (h : s.Inv) (hc : c.passive = true)
    (hp : (s.rofdpts.find? d = some p ∧ p.dpid = c.dpid) ∨ (s.rofdpts.find? d = none ∧ p.chan = .new))
    (honly : ∀ d' q, s.rofdpts.find? d' = some q → q.dpid = c.dpid → d' = d)
    (hheap : m.heap = s.heap.alloc c none) (hreplaced : m.replaced = s.supersede c)
    (hdpts : ∀ p', m.rofdpts.insert d p' = s.rofdpts.insert d p') (hstep : m.attach d p s.heap.next = some s') :
    s'.Inv := by
  unfold Datapaths.attach at hstep
  split_ifs at hstep with hblocked
  have hfree : p.chan.blocked = false := by simpa using hblocked
  have hnew : (m.heap.conn s.heap.next) = c := by
    rw [hheap]
    exact Function.update_self _ _ _
  cases hattach : p.chan.attach d m.heap s.heap.next with
  | mk heap chan =>
  rw [hattach] at hstep
  obtain rfl := Option.some.inj hstep
  rw [hheap] at hattach
  obtain ⟨hnext, hconn, hself, hreports, hconns, hstays, henv, hdeletion⟩ := Crofchan.attach_spec hattach
  cases hold : p.chan.conns.find? c.auxid with
  | none =>
    have hsupersede : s.supersede c = s.replaced := by
      refine funext fun i => Bool.eq_iff_iff.mpr (h.supersede_iff.trans (or_iff_left ?_))
      rintro ⟨d', q, hq, hdpid, -, hk⟩
      obtain rfl := honly d' q hq hdpid
      rcases hp with ⟨hp, -⟩ | ⟨hp, -⟩
      · obtain rfl : p = q := Option.some.inj (hp.symm.trans hq)
        rw [hold] at hk
        cases hk
      · rw [hp] at hq
        cases hq
    refine h.add (d := d) (c := c) (fun q hq => ?_) honly hc hnext hconn hself (fun i hi => ?_) hreports ?_
      (hreplaced.trans hsupersede) (hdpts _) (by rw [hnew]) (hstays.trans hfree) (fun k i => ?_)
    · rcases hp with ⟨hp, hdpid⟩ | ⟨hp, -⟩
      · obtain rfl : p = q := Option.some.inj (hp.symm.trans hq)
        exact ⟨hdpid, hfree, hold⟩
      · rw [hp] at hq
        cases hq
    · simp [henv i hi, hold]
    · simp [hdeletion, hold]
    · rw [hconns, Omap.find?_insert]
      by_cases hk : k = c.auxid
      · simp [hk, eq_comm (a := i)]
      · rcases hp with ⟨hp, -⟩ | ⟨hp, hchan⟩
        · simp [hk, hp]
        · simp [hk, hp, hchan, Crofchan.new]
  | some old =>
    obtain ⟨hp, hdpid⟩ : s.rofdpts.find? d = some p ∧ p.dpid = c.dpid := by
      rcases hp with hp | ⟨-, hchan⟩
      · exact hp
      · simp [hchan, Crofchan.new] at hold
    refine (h.makeRoom hp hdpid hfree hold).add (d := d) (c := c) (fun q hq => ?_) (fun d' q hq hq' => ?_) hc hnext hconn
      hself (fun i hi => ?_) hreports (by rw [hdeletion, hold]; rfl) hreplaced
      ((hdpts _).trans (Omap.insert_insert _ _ _ _).symm) (by rw [hnew]) (hstays.trans hfree) (fun k i => ?_)
    · simp only [Omap.find?_insert, if_true, Option.some.injEq] at hq
      subst hq
      exact ⟨hdpid, hfree, by simp⟩
    · by_contra hd
      simp only [Omap.find?_insert, if_neg hd] at hq
      exact hd (honly d' q hq hq')
    · rw [henv i hi, hold]
      simp only [ConnHeap.retire, ConnHeap.setEnv, Function.update_apply, Option.some.injEq, eq_comm (a := old)]
    · rw [hconns, Omap.find?_insert]
      by_cases hk : k = c.auxid
      · simp only [hk, if_true, Option.some.injEq, eq_comm (a := s.heap.next), true_and, ne_eq, not_true_eq_false,
          false_and, or_false]
        exact Iff.rfl
      · simp [hk]

theorem Inv.handleEstablished {s s' : Datapaths} {c : ChanConn} {junk : UInt64} (h : s.Inv) (hc : c.passive = true)
    (hstep : s.handleEstablished c junk = some s') : s'.Inv := by
  unfold Datapaths.handleEstablished hasDpt at hstep
  cases hfind : s.findDpt c.dpid with
  | none =>
    have hfind' : findDpt { s with heap := s.heap.alloc c none, replaced := s.supersede c } c.dpid = none := hfind
    simp only [hfind', Option.isSome_none, Bool.false_eq_true, if_false, addDpt, setDpt, Omap.find?_insert, if_true] at hstep
    exact h.attach hc (.inr ⟨s.rofdpts.find?_firstFree, rfl⟩)
      (fun d p hp hdpid => absurd hdpid (of_findDpt_none hfind hp)) rfl rfl (fun _ => Omap.insert_insert _ _ _ _) hstep
  | some d =>
    obtain ⟨p, hp, hdpid⟩ := of_findDpt hfind
    have hfind' : findDpt { s with heap := s.heap.alloc c none, replaced := s.supersede c } c.dpid = some d := hfind
    simp only [hfind', Option.isSome_some, if_true, setDptOf, setDpt, hp] at hstep
    exact h.attach (m := { s with heap := s.heap.alloc c none, replaced := s.supersede c }) hc (.inl ⟨hp, hdpid⟩)
      (fun d' q hq hq' => h.single d' d q p hq hp (hq'.trans hdpid.symm)) rfl rfl (fun _ => rfl) hstep

theorem Inv.step {s s' : Datapaths} {a : Act} (h : s.Inv) (hstep : s.step a = some s') : s'.Inv := by
  cases a with
  | established dpid auxid version junk => exact h.handleEstablished rfl hstep
  | closed id =>
    simp only [Datapaths.step] at hstep
    split_ifs at hstep
    exact h.handleClosed hstep
  | dropDpt dptid => exact h.dropDpt hstep

/-- One object for each datapath, every established connection at home with its
own, and superseded ones let go once, in every run. -/
theorem kept_of_run {s : Datapaths} {as : List Act} (h : Runs.run step new as = some s) : s.Kept :=
  (Runs.invariant (fun _ _ _ hs hstep => hs.step hstep) inv_new h).kept

/-! ## What is superseded -/

/-- The connections there were are the same when one has been handed over. -/
theorem handleEstablished_frame {s s' : Datapaths} {c : ChanConn} {junk : UInt64}
    (hstep : s.handleEstablished c junk = some s') :
    s'.replaced = s.supersede c ∧ ∀ i < s.heap.next, s'.heap.conn i = s.heap.conn i := by
  have hattach : ∀ {m : Datapaths} {d : ℕ} {p : Crofdpt}, m.replaced = s.supersede c → m.heap = s.heap.alloc c none →
      m.attach d p s.heap.next = some s' →
      s'.replaced = s.supersede c ∧ ∀ i < s.heap.next, s'.heap.conn i = s.heap.conn i := by
    intro m d p hreplaced hheap hm
    unfold Datapaths.attach at hm
    split_ifs at hm
    cases hchan : p.chan.attach d m.heap s.heap.next with
    | mk heap chan =>
      rw [hchan] at hm
      obtain rfl := Option.some.inj hm
      rw [hheap] at hchan
      exact ⟨hreplaced, (Crofchan.attach_spec hchan).2.1⟩
  unfold Datapaths.handleEstablished at hstep
  dsimp only at hstep
  refine hattach ?_ ?_ hstep
  all_goals
    unfold setDpt setDptOf addDpt
    split <;> split <;> try split
  all_goals rfl

theorem dropDpt_frame {s s' : Datapaths} {dptid : ℕ} (hstep : s.dropDpt dptid = some s') :
    s'.replaced = s.replaced ∧ ∀ i, (s'.heap.conn i).established = true → (s.heap.conn i).established = true := by
  unfold Datapaths.dropDpt at hstep
  split at hstep
  · obtain rfl := Option.some.inj hstep
    exact ⟨rfl, fun _ hi => hi⟩
  · split_ifs at hstep
    obtain rfl := Option.some.inj hstep
    exact ⟨rfl, (Crofchan.LetsGo.foldl_release _ _).established⟩

theorem handleClosed_frame {s s' : Datapaths} {id : ℕ} (hstep : s.handleClosed id = some s') :
    s'.replaced = s.replaced ∧ ∀ i, (s'.heap.conn i).established = true → (s.heap.conn i).established = true := by
  have hdown := (Crofchan.LetsGo.down s.heap id).established
  unfold Datapaths.handleClosed at hstep
  dsimp only at hstep
  split at hstep
  · obtain rfl := Option.some.inj hstep
    exact ⟨rfl, hdown⟩
  split at hstep
  · obtain rfl := Option.some.inj hstep
    exact ⟨rfl, hdown⟩
  split at hstep
  · cases hstep
  next heap chan hchan =>
  have hclosed : ∀ i, (heap.conn i).established = true → (s.heap.conn i).established = true :=
    fun i hi => hdown i (Crofchan.established_handleClosed hchan i hi)
  split_ifs at hstep
  · obtain ⟨hreplaced, hdrop⟩ := dropDpt_frame hstep
    exact ⟨hreplaced, fun i hi => hclosed i (hdrop i hi)⟩
  · obtain rfl := Option.some.inj hstep
    exact ⟨rfl, hclosed⟩

/-- One step of a run in which what has been superseded is closed. -/
theorem Sound.step_iff {s s' : Datapaths} {a : Act} (h : s.Inv) (hsound : s.Sound) (hstep : s.step a = some s') :
    s'.Sound ↔ s.Ok a := by
  have hkept := (h.step hstep).kept
  have hstays : s'.replaced = s.replaced →
      (∀ i, (s'.heap.conn i).established = true → (s.heap.conn i).established = true) → s'.Sound := by
    intro hreplaced hopen
    refine ⟨hkept, fun i hi => ?_⟩
    rw [hreplaced] at hi
    by_contra hestablished
    exact absurd (hopen i (by simpa using hestablished)) (by simp [hsound.closed i hi])
  cases a with
  | established dpid auxid version junk =>
    obtain ⟨hreplaced, hconn⟩ := handleEstablished_frame hstep
    constructor
    · intro hafter id hid henv hdpid hauxid
      have hsuperseded : s'.replaced id = true := by
        rw [hreplaced]
        simp [supersede, hid, henv, hdpid, hauxid]
      have hclosed := hafter.closed id hsuperseded
      rwa [hconn id hid] at hclosed
    · intro hok
      refine ⟨hkept, fun id hsuperseded => ?_⟩
      rw [hreplaced] at hsuperseded
      unfold supersede at hsuperseded
      simp only [Bool.or_eq_true, Bool.and_eq_true, decide_eq_true_iff] at hsuperseded
      obtain hbefore | ⟨⟨⟨hid, henv⟩, hdpid⟩, hauxid⟩ := hsuperseded
      · rw [hconn id (h.replaced id hbefore).1]
        exact hsound.closed id hbefore
      · rw [hconn id hid]
        exact hok id hid henv hdpid hauxid
  | closed id =>
    simp only [Datapaths.step] at hstep
    split_ifs at hstep
    obtain ⟨hreplaced, hopen⟩ := handleClosed_frame hstep
    exact iff_of_true (hstays hreplaced hopen) trivial
  | dropDpt dptid =>
    obtain ⟨hreplaced, hopen⟩ := dropDpt_frame hstep
    exact iff_of_true (hstays hreplaced hopen) trivial

theorem sound_new : new.Sound := ⟨inv_new.kept, fun _ h => by cases h⟩

/-- **One object for each datapath, every established connection at home with its
own, and superseded ones let go for good, throughout a run: exactly if no connection
comes in the place of one that is still open.** -/
theorem sound_iff_meets {s : Datapaths} {as : List Act} (h : Runs.run step new as = some s) :
    Runs.Along step (fun _ _ s' => s'.Sound) new as ↔ Runs.Meets step Ok new as :=
  Runs.along_next_iff_meets (J := Inv) (fun _ _ _ hs hstep => hs.step hstep)
    (fun _ _ _ hs hsound hstep => hsound.step_iff hs hstep) inv_new sound_new h

/-- The main connection of datapath 7 comes back after it has been closed, its
auxiliary one stays away, and datapath 8 is dropped. -/
theorem sound_iff_meets_back : ∃ s, Runs.run step new
    [.established 7 0 4 0, .established 8 0 4 7, .closed 0, .established 7 0 4 0, .dropDpt 1] = some s ∧
      s.heap.connsDeletion = [0, 1] ∧ s.rofdpts.keys = [0] ∧ Runs.Along step (fun _ _ s' => s'.Sound) new
        [.established 7 0 4 0, .established 8 0 4 7, .closed 0, .established 7 0 4 0, .dropDpt 1] := by
  obtain ⟨s, hrun, hdeletion, hkeys⟩ : ∃ s, Runs.run step new
      [.established 7 0 4 0, .established 8 0 4 7, .closed 0, .established 7 0 4 0, .dropDpt 1] = some s ∧
      s.heap.connsDeletion = [0, 1] ∧ s.rofdpts.keys = [0] := ⟨_, rfl, by decide +kernel, by decide +kernel⟩
  refine ⟨s, hrun, hdeletion, hkeys, (sound_iff_meets hrun).mpr ⟨?_, ?_, trivial, ?_, trivial, trivial⟩⟩
  all_goals
    show ∀ id, _
    decide +kernel

/-- The main connection of datapath 7 is established a second time, with the first
one open: this one is let go, and stays open. -/
theorem superseded_open : ∃ s, Runs.run step new
    [.established 7 1 4 0, .established 7 0 4 0, .established 7 0 4 0] = some s ∧ s.replaced 1 = true ∧
      s.heap.connsDeletion = [1] ∧ (s.heap.conn 1).established = true ∧ ¬ s.Sound := by
  refine ⟨_, rfl, by decide +kernel, by decide +kernel, by decide +kernel, fun hsound => ?_⟩
  exact absurd (hsound.closed 1 (by decide +kernel)) (by decide +kernel)

end Datapaths

end RoflCommon
