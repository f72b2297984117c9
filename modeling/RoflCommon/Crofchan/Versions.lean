/-
The version of a channel.

A channel takes over the version of its main connection, whenever that comes up or is
handed in, and builds all its messages with it. An auxiliary connection negotiates for
itself, and nobody compares. A run keeps one version on a channel if and only if every
step brings the one there is (`oneVersion_iff_meets`).
-/
import RoflCommon.Crofchan.Headed

namespace RoflCommon.Chan

inductive Event
  | addConn
  | addConnAs (auxid : Auxid)
  | addConnPtr (conn : Option ChanConn)
  | setConn (auxid : Auxid)
  | dropConn (auxid : Auxid)
  | clear
  /-- The negotiation has come to its end; a controller has been told the ids by the
  peer. -/
  | establish (id : ℕ) (ofpVersion : UInt8) (dpid : UInt64) (auxid : Auxid)
  | close (id : ℕ)
  /-- Connecting once more, with whatever version there is meanwhile. -/
  | reconnect (id : ℕ) (ofpVersion : UInt8)

/-- An event in steps of the channel: a connection changes, and then reports. -/
def acts (s : Chan) : Event → List Act
  | .addConn => [.addConn]
  | .addConnAs auxid => [.addConnAs auxid]
  | .addConnPtr conn => [.addConnPtr conn]
  | .setConn auxid => [.setConn auxid]
  | .dropConn auxid => [.dropConn auxid]
  | .clear => [.clear]
  | .establish id ofpVersion dpid auxid =>
    .conn id { s.heap.conn id with auxid, dpid, version := ofpVersion, established := true } ::
      if s.heap.env id = some self then [.handleEstablished id ofpVersion] else []
  | .close id =>
    .conn id { s.heap.conn id with established := false } ::
      if s.heap.env id = some self then [.handleClosed id] else []
  | .reconnect id ofpVersion => [.conn id { s.heap.conn id with version := ofpVersion, established := false }]

def event (s : Chan) (e : Event) : Option Chan := Runs.run step s (s.acts e)

/-- As long as the main connection is up, the channel has the version of it and of every
other one that is, so that nothing is sent in another version than was negotiated. -/
structure OneVersion (s : Chan) : Prop where
  main : ∀ m, s.chan.conns.find? 0 = some m → (s.heap.conn m).established = true →
    s.chan.ofpVersion = (s.heap.conn m).version
  others : ∀ m, s.chan.conns.find? 0 = some m → (s.heap.conn m).established = true →
    ∀ auxid id, s.chan.conns.find? auxid = some id → (s.heap.conn id).established = true →
      (s.heap.conn id).version = (s.heap.conn m).version
  sent : ∀ auxid ts f, s.chan.sendMessage s.heap auxid ts = .ok f → (s.heap.conn f.conn).version = s.chan.ofpVersion

/-- What comes up has the version that is there. A main connection is handed in, or takes
itself for the main one and says so to the channel, or has the version of the channel
anyhow; and what is up then has its version. -/
def Uniform (s : Chan) : Event → Prop
  | .addConnPtr (some c) => c.established = true →
      if c.auxid = 0 then
        ∀ e ∈ s.chan.conns.entries, e.1 ≠ 0 → (s.heap.conn e.2).established = true → (s.heap.conn e.2).version = c.version
      else s.chan.mainUp s.heap = true → c.version = s.chan.ofpVersion
  | .establish id ofpVersion _ auxid =>
      if s.chan.conns.find? 0 = some id then
        (s.heap.env id = some self ∧ auxid = 0 ∨ ofpVersion = s.chan.ofpVersion) ∧
        ∀ e ∈ s.chan.conns.entries, e.2 ≠ id → (s.heap.conn e.2).established = true →
          (s.heap.conn e.2).version = ofpVersion
      else s.chan.mainUp s.heap = true → id ∈ s.chan.conns.values ∨ s.heap.env id = some self ∧ auxid = 0 →
        ofpVersion = s.chan.ofpVersion
  | .addConn | .addConnAs _ | .addConnPtr none | .setConn _ | .dropConn _ | .clear | .close _ | .reconnect _ _ => True

/-- All in one: what is up has the version of the channel. -/
def Agrees (s : Chan) : Prop :=
  s.MainUp → ∀ k id, s.chan.conns.find? k = some id → (s.heap.conn id).established = true →
    (s.heap.conn id).version = s.chan.ofpVersion

theorem canSend_of_ok {s : Chan} {auxid : Auxid} {ts : Option ℕ} {f : Crofchan.Forwarded}
    (h : s.chan.sendMessage s.heap auxid ts = .ok f) : s.CanSend auxid f.conn := by
  unfold Crofchan.sendMessage at h
  by_cases hheadless : s.chan.Headless
  · rw [Crofchan.isEstablished_of_headless hheadless] at h
    cases h
  · rw [Crofchan.isEstablished_of_not_headless hheadless] at h
    cases hup : s.chan.mainUp s.heap with
    | false =>
      rw [hup] at h
      cases h
    | true =>
      rw [hup] at h
      cases haux : s.chan.conns.find? auxid with
      | none =>
        rw [haux] at h
        cases h
      | some id =>
        rw [haux] at h
        dsimp only at h
        split_ifs at h with hid
        cases h
        exact ⟨mainUp_iff.mpr hup, haux, hid⟩

theorem oneVersion_iff {s : Chan} : s.OneVersion ↔ s.Agrees := by
  constructor
  · rintro h ⟨m, hm, hup⟩ k id hk hid
    rw [h.others m hm hup k id hk hid, h.main m hm hup]
  · intro h
    refine ⟨fun m hm hup => (h ⟨m, hm, hup⟩ 0 m hm hup).symm, fun m hm hup k id hk hid => ?_, fun auxid ts f hf => ?_⟩
    · rw [h ⟨m, hm, hup⟩ k id hk hid, h ⟨m, hm, hup⟩ 0 m hm hup]
    · obtain ⟨hup, hconn, hest⟩ := canSend_of_ok hf
      exact h hup auxid f.conn hconn hest

/-! ## Events that bring nothing up -/

/-- A connection that is up is so since before, and as it was. -/
def Quieter (h h' : ConnHeap) : Prop := ∀ i, (h'.conn i).established = true → h'.conn i = h.conn i

theorem Quieter.refl (h : ConnHeap) : Quieter h h := fun _ _ => rfl

theorem Quieter.trans {h m h' : ConnHeap} (hm : Quieter h m) (hm' : Quieter m h') : Quieter h h' := fun i hi => by
  have heq := hm' i hi
  rw [heq] at hi ⊢
  exact hm i hi

theorem quieter_modify (h : ConnHeap) (id : ℕ) {f : ChanConn → ChanConn} (hf : ∀ c, (f c).established = false) :
    Quieter h (h.modify id f) := fun i hi => by
  by_cases hid : i = id
  · rw [hid] at hi
    simp [ConnHeap.modify, hf] at hi
  · simp [ConnHeap.modify, hid]

theorem quieter_down (h : ConnHeap) (id : ℕ) : Quieter h (h.down id) := quieter_modify h id fun _ => rfl

theorem quieter_retire (h : ConnHeap) (id : ℕ) : Quieter h (h.retire id) := fun _ _ => rfl

theorem quieter_release (h : ConnHeap) (id : ℕ) : Quieter h (Crofchan.release h id) :=
  (quieter_down h id).trans (quieter_retire _ id)

theorem quieter_foldl_release (h : ConnHeap) (ids : List ℕ) : Quieter h (ids.foldl Crofchan.release h) := by
  induction ids generalizing h with
  | nil => exact .refl h
  | cons id ids ih => exact (quieter_release h id).trans (ih _)

theorem quieter_closeAll {h h' : ConnHeap} {es : List (Auxid × ℕ)} {b : Bool}
    (hclose : Crofchan.closeAll h es = some (h', b)) : Quieter h h' := by
  induction es generalizing h with
  | nil =>
    simp only [Crofchan.closeAll, Option.some.injEq, Prod.mk.injEq] at hclose
    rw [← hclose.1]
    exact .refl h
  | cons e es ih =>
    have hdown := quieter_down h e.2
    unfold Crofchan.closeAll at hclose
    split_ifs at hclose with hmain hpassive hdetached hpassive hself hpassive
    · exact (quieter_retire h e.2).trans (ih hclose)
    · exact ih hclose
    · exact (hdown.trans (quieter_retire _ e.2)).trans (ih hclose)
    · exact hdown.trans (ih hclose)
    · simp only [Option.some.injEq, Prod.mk.injEq] at hclose
      rw [← hclose.1]
      exact hdown
    · exact hdown.trans (ih hclose)

theorem quieter_handleClosed {c : Crofchan} {h : ConnHeap} {id : ℕ} {r : ConnHeap × Crofchan}
    (hclosed : c.handleClosed h id = some r) : Quieter h r.1 ∧ r.2.ofpVersion = c.ofpVersion := by
  unfold Crofchan.handleClosed at hclosed
  split_ifs at hclosed
  · split at hclosed
    next => cases hclosed
    next h' hclose =>
      cases hclosed
      exact ⟨quieter_closeAll hclose, rfl⟩
    next h' hclose =>
      cases hclosed
      exact ⟨quieter_closeAll hclose, rfl⟩
  · cases hclosed
    exact ⟨.refl h, rfl⟩
  · cases hclosed
    exact ⟨.refl h, rfl⟩

/-- No more connections are up than before, and the channel has the version it had. -/
structure Quiet (s s' : Chan) : Prop where
  up : ∀ k id, s'.chan.conns.find? k = some id → (s'.heap.conn id).established = true →
    s.chan.conns.find? k = some id ∧ s'.heap.conn id = s.heap.conn id
  ofpVersion : s'.chan.ofpVersion = s.chan.ofpVersion

theorem Quiet.agrees {s s' : Chan} (h : s.Quiet s') (hs : s.Agrees) : s'.Agrees := by
  rintro ⟨m, hm, hup⟩ k id hk hid
  obtain ⟨hm, hsame⟩ := h.up 0 m hm hup
  obtain ⟨hk, hsame'⟩ := h.up k id hk hid
  rw [hsame] at hup
  rw [hsame'] at hid ⊢
  rw [h.ofpVersion]
  exact hs ⟨m, hm, hup⟩ k id hk hid

/-- Some of the connections are left, none of them up that was not. -/
theorem Quiet.of_sub {s s' : Chan} (hheap : Quieter s.heap s'.heap)
    (hsub : ∀ k id, s'.chan.conns.find? k = some id → s.chan.conns.find? k = some id)
    (hversion : s'.chan.ofpVersion = s.chan.ofpVersion) : s.Quiet s' :=
  ⟨fun k id hk hid => ⟨hsub k id hk, hheap id hid⟩, hversion⟩

theorem Quiet.trans {s m s' : Chan} (h : s.Quiet m) (h' : m.Quiet s') : s.Quiet s' where
  up k id hk hid := by
    obtain ⟨hm, hsame⟩ := h'.up k id hk hid
    rw [hsame] at hid
    obtain ⟨hs, hsame'⟩ := h.up k id hm hid
    exact ⟨hs, hsame.trans hsame'⟩
  ofpVersion := h'.ofpVersion.trans h.ofpVersion

/-- A connection that the channel makes is not up. -/
theorem quiet_create {s : Chan} (hs : s.Intact) {h : ConnHeap} (hnext : h.next = s.heap.next) (hquieter : Quieter s.heap h)
    {c : Crofchan} (hconns : c.conns = s.chan.conns) (hversion : c.ofpVersion = s.chan.ofpVersion) (auxid : Auxid) :
    s.Quiet ⟨(c.create self h auxid).1, (c.create self h auxid).2⟩ := by
  refine ⟨fun k id hk hid => ?_, hversion⟩
  simp only [Crofchan.create, Omap.find?_insert, hconns] at hk
  simp only [Crofchan.create] at hid ⊢
  by_cases hkey : k = auxid
  · rw [if_pos hkey, Option.some.injEq] at hk
    subst hk
    simp [ConnHeap.alloc, Crofchan.fresh] at hid
  · rw [if_neg hkey] at hk
    have hlt : id < h.next := hnext ▸ hs.allocated k id hk
    rw [Crofchan.conn_alloc_of_lt hlt] at hid ⊢
    exact ⟨hk, hquieter id hid⟩

/-- What brings no connection up, as far as the channel is concerned. -/
def Act.Quiets : Act → Prop
  | .addConnPtr (some _) | .handleEstablished _ _ => False
  | .conn _ c => c.established = false
  | .addConn | .addConnAs _ | .addConnPtr none | .setConn _ | .dropConn _ | .clear | .handleClosed _ => True

theorem Quiet.refl (s : Chan) : s.Quiet s := ⟨fun _ _ hk _ => ⟨hk, rfl⟩, rfl⟩

theorem quiet_step {s s' : Chan} {a : Act} (hs : s.Intact) (ha : a.Quiets) (hstep : s.step a = some s') :
    s.Quiet s' := by
  have hcleared : ∀ {s' : Chan}, s'.chan.conns = .empty → s'.chan.ofpVersion = s.chan.ofpVersion → s.Quiet s' := by
    intro s' hconns hversion
    refine ⟨fun k id hk => ?_, hversion⟩
    rw [hconns] at hk
    cases hk
  cases a with
  | addConn =>
    simp only [step, locked] at hstep
    split_ifs at hstep
    obtain rfl := Option.some.inj hstep
    unfold Crofchan.addConn
    generalize Crofchan.nextAuxid s.chan.conns 256 s.chan.lastAuxid = r
    dsimp only
    split_ifs
    · exact ⟨fun k id hk _ => ⟨hk, rfl⟩, rfl⟩
    · exact quiet_create (c := { s.chan with lastAuxid := r.2 }) hs rfl (.refl _) rfl rfl r.2
  | addConnAs auxid =>
    simp only [step, locked] at hstep
    split_ifs at hstep
    obtain rfl := Option.some.inj hstep
    unfold Crofchan.addConnAs
    split
    · exact quiet_create hs rfl (.refl _) rfl rfl auxid
    · next old _ =>
      have hfree : Quieter s.heap (s.heap.free old) := quieter_down s.heap old
      exact quiet_create (h := s.heap.free old) hs rfl hfree rfl rfl auxid
  | addConnPtr conn =>
    cases conn with
    | none =>
      obtain rfl := Option.some.inj hstep
      exact .refl s
    | some c => exact absurd ha id
  | setConn auxid =>
    simp only [step, locked] at hstep
    split_ifs at hstep
    obtain rfl := Option.some.inj hstep
    unfold Crofchan.setConn
    split
    · exact quiet_create hs rfl (.refl _) rfl rfl auxid
    · exact .refl s
  | dropConn auxid =>
    simp only [step, locked] at hstep
    split_ifs at hstep
    obtain rfl := Option.some.inj hstep
    unfold Crofchan.dropConn
    by_cases hauxid : auxid = 0
    · rw [if_pos hauxid]
      exact hcleared rfl rfl
    · rw [if_neg hauxid]
      split
      · exact .refl s
      · next id _ =>
        refine .of_sub (quieter_release s.heap id) (fun k i hk => ?_) rfl
        rw [Omap.find?_erase] at hk
        split_ifs at hk
        exact hk
  | clear =>
    simp only [step, locked] at hstep
    split_ifs at hstep
    obtain rfl := Option.some.inj hstep
    exact hcleared rfl rfl
  | handleEstablished id v => exact absurd ha (fun h => h)
  | handleClosed id =>
    simp only [step] at hstep
    split_ifs at hstep
    obtain ⟨r, hr, rfl⟩ := Option.map_eq_some_iff.mp hstep
    obtain ⟨hquieter, hversion⟩ := quieter_handleClosed hr
    exact .of_sub hquieter (handleClosed_spec hs hr).2.1 hversion
  | conn id c =>
    simp only [step] at hstep
    split_ifs at hstep
    obtain rfl := Option.some.inj hstep
    exact .of_sub (quieter_modify s.heap id fun _ => ha) (fun k i hk => hk) rfl

theorem quiet_run {s s' : Chan} {as : List Act} (hs : s.Intact) (has : ∀ a ∈ as, a.Quiets)
    (h : Runs.run step s as = some s') : s.Quiet s' := by
  have hkeep : ∀ t a t', (s.Quiet t ∧ t.Intact) → a.Quiets → t.step a = some t' → s.Quiet t' ∧ t'.Intact :=
    fun t a t' ht ha hstep => ⟨ht.1.trans (quiet_step ht.2 ha hstep), ht.2.step hstep⟩
  exact (Runs.invariant_of_meets hkeep ⟨.refl s, hs⟩ (Runs.meets_of_forall has) h).1

/-! ## Connections that come up -/

theorem Intact.event {s s' : Chan} {e : Event} (hs : s.Intact) (h : s.event e = some s') : s'.Intact :=
  Runs.invariant (fun _ _ _ ht hstep => ht.step hstep) hs h

/-- A connection has been handed in. -/
structure HandedIn (s s' : Chan) (c : ChanConn) : Prop where
  other : ∀ {k id}, k ≠ c.auxid → (s'.chan.conns.find? k = some id ↔ s.chan.conns.find? k = some id)
  place : s'.chan.conns.find? c.auxid = some s.heap.next
  new : s'.heap.conn s.heap.next = c
  old : ∀ {k id}, s.chan.conns.find? k = some id → s'.heap.conn id = s.heap.conn id
  ofpVersion : s'.chan.ofpVersion = if c.auxid = 0 then c.version else s.chan.ofpVersion

theorem handedIn {s s' : Chan} {c : ChanConn} (hs : s.Intact) (hstep : s.step (.addConnPtr (some c)) = some s') :
    s.HandedIn s' c := by
  simp only [step, locked] at hstep
  split_ifs at hstep
  have hself : (s.heap.alloc c none).conn s.heap.next = c := Function.update_self _ _ _
  have hversion : (s.chan.attach self (s.heap.alloc c none) s.heap.next).2.ofpVersion =
      if c.auxid = 0 then c.version else s.chan.ofpVersion := by
    simp only [Crofchan.attach, hself]
  cases hattach : s.chan.attach self (s.heap.alloc c none) s.heap.next with
  | mk heap chan =>
    obtain ⟨-, hold, hnew, -, hconns, -⟩ := Crofchan.attach_spec hattach
    rw [hattach] at hstep hversion
    obtain rfl := Option.some.inj hstep
    refine ⟨fun {k id} hk => ?_, ?_, hnew, fun {k id} hk => hold id (hs.allocated k id hk), hversion⟩
    · rw [hconns, Omap.find?_insert, if_neg hk]
    · rw [hconns, Omap.find?_insert, if_pos rfl]

/-- The version of a connection that is handed in is what matters, if it is up. -/
theorem HandedIn.agrees_iff {s s' : Chan} {c : ChanConn} (h : s.HandedIn s' c) (hagrees : s.Agrees) :
    s'.Agrees ↔ Uniform s (.addConnPtr (some c)) := by
  simp only [Uniform]
  by_cases hauxid : c.auxid = 0
  · rw [if_pos hauxid]
    have hversion : s'.chan.ofpVersion = c.version := by rw [h.ofpVersion, if_pos hauxid]
    have hmain : s'.chan.conns.find? 0 = some s.heap.next := hauxid ▸ h.place
    constructor
    · intro hs' hc e he hne hup
      have hfind := Omap.find?_eq_some.mpr he
      have hsame := h.old hfind
      have hfind' := (h.other (hauxid ▸ hne)).mpr hfind
      have := hs' ⟨_, hmain, by rw [h.new]; exact hc⟩ e.1 e.2 hfind' (by rw [hsame]; exact hup)
      rwa [hsame, hversion] at this
    · rintro huniform ⟨m, hm, hup⟩ k id hk hid
      obtain rfl := Option.some.inj (hmain.symm.trans hm)
      rw [h.new] at hup
      by_cases hzero : k = 0
      · subst hzero
        obtain rfl := Option.some.inj (hmain.symm.trans hk)
        rw [h.new, hversion]
      · have hfind := (h.other (hauxid ▸ hzero)).mp hk
        rw [h.old hfind] at hid ⊢
        rw [hversion]
        exact huniform hup (k, id) (Omap.find?_eq_some.mp hfind) hzero hid
  · rw [if_neg hauxid]
    have hversion : s'.chan.ofpVersion = s.chan.ofpVersion := by rw [h.ofpVersion, if_neg hauxid]
    have hmain : s'.MainUp ↔ s.MainUp := by
      refine exists_congr fun m => ?_
      rw [h.other (Ne.symm hauxid)]
      refine and_congr_right fun hm => ?_
      rw [h.old hm]
    rw [← mainUp_iff]
    constructor
    · intro hs' hc hup
      have := hs' (hmain.mpr hup) c.auxid _ h.place (by rw [h.new]; exact hc)
      rwa [h.new, hversion] at this
    · intro huniform hup k id hk hid
      rw [hversion]
      by_cases hkey : k = c.auxid
      · subst hkey
        obtain rfl := Option.some.inj (h.place.symm.trans hk)
        rw [h.new] at hid ⊢
        exact huniform hid (hmain.mp hup)
      · have hfind := (h.other hkey).mp hk
        rw [h.old hfind] at hid ⊢
        exact hagrees (hmain.mp hup) k id hfind hid

/-- A connection has come up. -/
structure CameUp (s s' : Chan) (id : ℕ) (v : UInt8) (auxid : Auxid) : Prop where
  conns : s'.chan.conns = s.chan.conns
  up : (s'.heap.conn id).established = true
  version : (s'.heap.conn id).version = v
  other : ∀ {i}, i ≠ id → s'.heap.conn i = s.heap.conn i
  ofpVersion : s'.chan.ofpVersion = if s.heap.env id = some self ∧ auxid = 0 then v else s.chan.ofpVersion

theorem cameUp {s s' : Chan} {id : ℕ} {v : UInt8} {dpid : UInt64} {auxid : Auxid}
    (h : s.event (.establish id v dpid auxid) = some s') : s.CameUp s' id v auxid := by
  unfold event acts at h
  obtain ⟨m, hm, h⟩ := Runs.run_cons.mp h
  simp only [step] at hm
  split_ifs at hm
  obtain rfl := Option.some.inj hm
  have hself : ∀ c, ((s.heap.modify id fun _ => c).conn id) = c := fun c => Function.update_self _ _ _
  split_ifs at h with henv
  · obtain ⟨t, ht, h⟩ := Runs.run_cons.mp h
    obtain rfl := Option.some.inj h
    simp only [step] at ht
    split_ifs at ht
    obtain rfl := Option.some.inj ht
    refine ⟨?_, ?_, ?_, fun hi => Function.update_of_ne hi _ _, ?_⟩
    · simp only [Crofchan.handleEstablished]
      split_ifs <;> rfl
    · rw [hself]
    · rw [hself]
    · simp only [Crofchan.handleEstablished, hself, henv, true_and]
      split_ifs <;> rfl
  · obtain rfl := Option.some.inj h
    refine ⟨rfl, ?_, ?_, fun hi => Function.update_of_ne hi _ _, ?_⟩
    · rw [hself]
    · rw [hself]
    · rw [if_neg fun h => henv h.1]

theorem CameUp.agrees_iff {s s' : Chan} {id : ℕ} {v : UInt8} {dpid : UInt64} {auxid : Auxid}
    (h : s.CameUp s' id v auxid) (hagrees : s.Agrees) : s'.Agrees ↔ Uniform s (.establish id v dpid auxid) := by
  simp only [Uniform]
  by_cases hmain : s.chan.conns.find? 0 = some id
  · rw [if_pos hmain]
    have hup : s'.MainUp := ⟨id, by rw [h.conns, hmain], h.up⟩
    constructor
    · intro hs'
      have hself := hs' hup 0 id (by rw [h.conns, hmain]) h.up
      rw [h.version] at hself
      refine ⟨?_, fun e he hne hest => ?_⟩
      · by_cases hreports : s.heap.env id = some self ∧ auxid = 0
        · exact .inl hreports
        · rw [h.ofpVersion, if_neg hreports] at hself
          exact .inr hself
      · have hfind : s'.chan.conns.find? e.1 = some e.2 := by rw [h.conns, Omap.find?_eq_some.mpr he]
        have hversion := hs' hup e.1 e.2 hfind (by rw [h.other hne, hest])
        rwa [← hself, h.other hne] at hversion
    · rintro ⟨hreports, hothers⟩ - k i hk hi
      have hversion : s'.chan.ofpVersion = v := by
        rw [h.ofpVersion]
        split_ifs with hcond
        · rfl
        · exact (hreports.resolve_left hcond).symm
      rw [hversion]
      by_cases hid : i = id
      · rw [hid, h.version]
      · rw [h.other hid] at hi ⊢
        exact hothers (k, i) (Omap.find?_eq_some.mp (h.conns ▸ hk)) hid hi
  · rw [if_neg hmain]
    have hup : s'.MainUp ↔ s.MainUp := by
      refine exists_congr fun m => ?_
      rw [h.conns]
      refine and_congr_right fun hm => ?_
      rw [h.other fun heq => hmain (heq ▸ hm)]
    rw [← mainUp_iff]
    constructor
    · intro hs' hmainUp hconn
      have ⟨m, hm, hest⟩ := hmainUp
      have hne : m ≠ id := fun heq => hmain (heq ▸ hm)
      have hbefore := hagrees hmainUp 0 m hm hest
      have hafter := hs' (hup.mpr hmainUp) 0 m (by rw [h.conns, hm]) (by rw [h.other hne, hest])
      rw [h.other hne, hbefore] at hafter
      rcases hconn with hvalue | hreports
      · obtain ⟨e, he, rfl⟩ := List.mem_map.mp hvalue
        have hfind : s'.chan.conns.find? e.1 = some e.2 := by rw [h.conns, Omap.find?_eq_some.mpr he]
        have hself := hs' (hup.mpr hmainUp) e.1 e.2 hfind h.up
        rwa [h.version, ← hafter] at hself
      · rw [hafter, h.ofpVersion, if_pos hreports]
    · intro huniform hmainUp k i hk hi
      have hbefore := huniform (hup.mp hmainUp)
      have hversion : s'.chan.ofpVersion = s.chan.ofpVersion := by
        rw [h.ofpVersion]
        split_ifs with hcond
        · exact hbefore (.inr hcond)
        · rfl
      rw [h.conns] at hk
      rw [hversion]
      by_cases hid : i = id
      · have hvalue : id ∈ s.chan.conns.values := List.mem_map.mpr ⟨(k, i), Omap.find?_eq_some.mp hk, hid⟩
        rw [hid, h.version]
        exact hbefore (.inl hvalue)
      · rw [h.other hid] at hi ⊢
        exact hagrees (hup.mp hmainUp) k i hk hi

theorem agrees_event {s s' : Chan} {e : Event} (hs : s.Intact) (hagrees : s.Agrees) (h : s.event e = some s') :
    s'.Agrees ↔ Uniform s e := by
  have hquiet : (∀ a ∈ s.acts e, a.Quiets) → s'.Agrees := fun hquiets => (quiet_run hs hquiets h).agrees hagrees
  have hone : ∀ {a : Act}, a.Quiets → ∀ b ∈ [a], b.Quiets := fun ha b hb => List.mem_singleton.mp hb ▸ ha
  cases e with
  | addConn => exact iff_of_true (hquiet (hone trivial)) trivial
  | addConnAs auxid => exact iff_of_true (hquiet (hone trivial)) trivial
  | addConnPtr conn =>
    cases conn with
    | none => exact iff_of_true (hquiet (hone trivial)) trivial
    | some c =>
      obtain ⟨t, ht, h⟩ := Runs.run_cons.mp h
      obtain rfl := Option.some.inj h
      exact (handedIn hs ht).agrees_iff hagrees
  | setConn auxid => exact iff_of_true (hquiet (hone trivial)) trivial
  | dropConn auxid => exact iff_of_true (hquiet (hone trivial)) trivial
  | clear => exact iff_of_true (hquiet (hone trivial)) trivial
  | establish id v dpid auxid => exact (cameUp h).agrees_iff hagrees
  | close id =>
    refine iff_of_true (hquiet fun a ha => ?_) trivial
    dsimp only [acts] at ha
    split_ifs at ha
    · rcases List.mem_cons.mp ha with rfl | ha
      · exact rfl
      · exact hone (a := .handleClosed id) trivial a ha
    · rw [List.mem_singleton.mp ha]
      exact rfl
  | reconnect id v => exact iff_of_true (hquiet (hone rfl)) trivial

/-- **A channel has the version of all that is up, as long as the main connection is,
after every event of a run, exactly when every connection that comes up meanwhile brings
the version there is.** -/
theorem oneVersion_iff_meets {t : Chan} {es : List Event} (h : Runs.run event new es = some t) :
    Runs.Along event (fun _ _ s' => OneVersion s') new es ↔ Runs.Meets event Uniform new es := by
  simp only [oneVersion_iff]
  refine Runs.along_next_iff_meets (I := Agrees) (J := Intact) (fun s e s' hs hstep => hs.event hstep)
    (fun s e s' hs hagrees hstep => agrees_event hs hagrees hstep) intact_new ?_ h
  rintro ⟨m, hm, -⟩
  cases hm

/-- A main connection is handed in and an auxiliary one made, which comes up with the same
version; then both once more with another one, the main one first closed. -/
theorem oneVersion_iff_meets_again : ∃ t, Runs.run event new
    [.addConnPtr (some ⟨0, 7, Openflow12.OFP_VERSION, false, true⟩), .addConnAs 1,
      .establish 1 Openflow12.OFP_VERSION 7 1, .close 0, .establish 0 Openflow13.OFP_VERSION 7 0,
      .establish 1 Openflow13.OFP_VERSION 7 1] = some t ∧
    t.chan.sendMessage t.heap 1 none = .ok ⟨1, none⟩ ∧ t.chan.ofpVersion = Openflow13.OFP_VERSION ∧
    Runs.Along event (fun _ _ s' => OneVersion s') new
      [.addConnPtr (some ⟨0, 7, Openflow12.OFP_VERSION, false, true⟩), .addConnAs 1,
        .establish 1 Openflow12.OFP_VERSION 7 1, .close 0, .establish 0 Openflow13.OFP_VERSION 7 0,
        .establish 1 Openflow13.OFP_VERSION 7 1] := by
  refine ⟨_, rfl, by decide +kernel, by decide +kernel, (oneVersion_iff_meets rfl).mpr ?_⟩
  -- an auxiliary connection comes up twice, a main one once
  have haux : ∀ {s : Chan} {v : UInt8}, s.chan.conns.find? 0 = some 0 →
      (s.chan.mainUp s.heap = true → v = s.chan.ofpVersion) →
      Uniform s (.establish 1 v 7 1) := by
    intro s v hmain hup
    simp only [Uniform, hmain]
    exact fun h _ => hup h
  refine ⟨fun _ => by decide +kernel, trivial, haux (by decide +kernel) (by decide +kernel), trivial, ?_,
    haux (by decide +kernel) (by decide +kernel), trivial⟩
  refine ⟨.inl (by decide +kernel), by decide +kernel⟩

/-- The main connection negotiates 1.3 and an auxiliary one 1.0: what is sent on that is
built in the version of the other. -/
theorem otherVersion_sent : ∃ t, Runs.run event new
    [.addConnAs 0, .establish 0 Openflow13.OFP_VERSION 7 0, .addConnAs 1, .establish 1 Openflow10.OFP_VERSION 7 1] =
      some t ∧
    t.chan.sendMessage t.heap 1 none = .ok ⟨1, none⟩ ∧ t.chan.ofpVersion = Openflow13.OFP_VERSION ∧
    (t.heap.conn 1).version = Openflow10.OFP_VERSION ∧ ¬ t.OneVersion := by
  refine ⟨_, rfl, by decide +kernel, by decide +kernel, by decide +kernel, fun h => ?_⟩
  have hsent := h.sent 1 none ⟨1, none⟩ (by decide +kernel)
  revert hsent
  decide +kernel

end RoflCommon.Chan
