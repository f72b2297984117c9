/-
A control channel: the connections of one peer, each under its auxiliary id, the
main one under 0.

Connections are objects that channels point to and take from each other, so
they are kept aside in a heap, with where their events go. The lock of `conns`
is not reentrant: `handle_closed` of the main connection closes the others while
it reads the map, and a passive one of them then asks for the same lock to write
(`blocked`). Nothing but readers gets through after that.
-/
import RoflCommon.Openflow
import RoflCommon.Lib.Omap
import Mathlib.Order.Fin.Basic

namespace RoflCommon

/-- `cauxid`. -/
abbrev Auxid := Fin 256

instance (n : ℕ) : OfNat Auxid n := ⟨⟨n % 256, Nat.mod_lt n (by decide)⟩⟩

/-- What a channel sees of a connection. -/
structure ChanConn where
  auxid : Auxid
  dpid : UInt64
  version : UInt8
  passive : Bool
  established : Bool
deriving DecidableEq, Repr

/-! ## The heap -/

/-- The connections there are, and the channel each reports to. -/
structure ConnHeap where
  conn : ℕ → ChanConn
  env : ℕ → Option ℕ
  next : ℕ
  /-- What has been put into the `conns_deletion` of any channel, in order. -/
  connsDeletion : List ℕ

namespace ConnHeap

def empty : ConnHeap := ⟨fun _ => ⟨0, 0, 0, false, false⟩, fun _ => none, 0, []⟩

/-- A connection nobody has heard of before. -/
def alloc (h : ConnHeap) (c : ChanConn) (env : Option ℕ) : ConnHeap :=
  { h with
    conn := Function.update h.conn h.next c
    env := Function.update h.env h.next env
    next := h.next + 1 }

def modify (h : ConnHeap) (id : ℕ) (f : ChanConn → ChanConn) : ConnHeap :=
  { h with conn := Function.update h.conn id (f (h.conn id)) }

def setEnv (h : ConnHeap) (id : ℕ) (env : Option ℕ) : ConnHeap := { h with env := Function.update h.env id env }

/-- `close`, as far as the connection itself is concerned. -/
def down (h : ConnHeap) (id : ℕ) : ConnHeap := h.modify id ({ · with established := false })

/-- Scheduled for deletion. -/
def retire (h : ConnHeap) (id : ℕ) : ConnHeap :=
  { h.setEnv id none with connsDeletion := h.connsDeletion ++ [id] }

/-- Destroyed. -/
def free (h : ConnHeap) (id : ℕ) : ConnHeap := (h.down id).setEnv id none

end ConnHeap

/-! ## The channel -/

/-- What is thrown, by its class. -/
inductive ChanException
  /-- `rofl::exception`. -/
  | exception
  /-- `eRofConnNotConnected`. -/
  | notConnected
  /-- `eRofChanExhausted`. -/
  | exhausted
  /-- `std::out_of_range`. -/
  | outOfRange
deriving DecidableEq, Repr

/-- `throw e.set_func(..)`: `set_func` returns a reference to `rofl::exception`, and what
is copied for the `throw` is an object of this class. -/
def ChanException.setFunc (_ : ChanException) : ChanException := .exception

structure Crofchan where
  conns : Omap Auxid ℕ
  lastAuxid : Auxid
  ofpVersion : UInt8
  blocked : Bool
deriving DecidableEq

namespace Crofchan

def new : Crofchan := ⟨.empty, 0, Openflow.OFP_VERSION_UNKNOWN, false⟩

/-! ### Asking -/

def isEstablished (c : Crofchan) (h : ConnHeap) : Except ChanException Bool :=
  if c.conns.entries = [] then .ok false
  else
    match c.conns.find? 0 with
    | none => .error .outOfRange
    | some id => .ok (h.conn id).established

/-- What is handed to a connection: which one, and the time to wait for a reply
where one is given. -/
structure Forwarded where
  conn : ℕ
  ts : Option ℕ
deriving DecidableEq, Repr

/-- Both functions of the name: without a time, and with one. -/
def sendMessage (c : Crofchan) (h : ConnHeap) (auxid : Auxid) (ts : Option ℕ) : Except ChanException Forwarded :=
  match c.isEstablished h with
  | .error e => .error e
  | .ok false => .error (.setFunc .notConnected)
  | .ok true =>
    match c.conns.find? auxid with
    | none => .error (.setFunc .notConnected)
    | some id => if (h.conn id).established then .ok ⟨id, ts⟩ else .error (.setFunc .notConnected)

/-- The main connection is there and established. -/
def mainUp (c : Crofchan) (h : ConnHeap) : Bool := (c.conns.find? 0).any fun id => (h.conn id).established

/-- There are connections, but no main one. -/
def Headless (c : Crofchan) : Prop := c.conns.entries ≠ [] ∧ c.conns.find? 0 = none

instance (c : Crofchan) : Decidable c.Headless := instDecidableAnd

theorem isEstablished_of_headless {c : Crofchan} {h : ConnHeap} (hc : c.Headless) :
    c.isEstablished h = .error .outOfRange := by
  unfold isEstablished
  rw [if_neg hc.1, hc.2]

theorem isEstablished_of_not_headless {c : Crofchan} {h : ConnHeap} (hc : ¬ c.Headless) :
    c.isEstablished h = .ok (c.mainUp h) := by
  unfold isEstablished mainUp
  by_cases hempty : c.conns.entries = []
  · rw [if_pos hempty, Omap.entries_eq_nil.mp hempty]
    rfl
  · rw [if_neg hempty]
    cases hmain : c.conns.find? 0 with
    | none => exact absurd ⟨hempty, hmain⟩ hc
    | some id => rfl

theorem mainUp_of_headless {c : Crofchan} {h : ConnHeap} (hc : c.Headless) : c.mainUp h = false := by
  unfold mainUp
  rw [hc.2]
  rfl

/-! ### Adding -/

/-- The loop of `add_conn`: the counter, as a 32-bit number, and the id that it
ends with. -/
def nextAuxid (conns : Omap Auxid ℕ) : ℕ → Auxid → ℕ × Auxid
  | 0, auxid => (0xffffffff, auxid)
  | cnt + 1, auxid => if conns.find? auxid = none then (cnt, auxid) else nextAuxid conns cnt (auxid + 1)

/-- What the channel makes itself: neither connected nor accepted yet. -/
def fresh (auxid : Auxid) : ChanConn := ⟨auxid, 0, Openflow.OFP_VERSION_UNKNOWN, false, false⟩

/-- A new connection under an id. -/
def create (c : Crofchan) (self : ℕ) (h : ConnHeap) (auxid : Auxid) : ConnHeap × Crofchan :=
  (h.alloc (fresh auxid) (some self), { c with conns := c.conns.insert auxid h.next })

/-- `add_conn()`: where it throws, the id stays where the search has ended. -/
def addConn (c : Crofchan) (self : ℕ) (h : ConnHeap) : (ConnHeap × Crofchan) × Option ChanException :=
  let (cnt, auxid) := nextAuxid c.conns 256 c.lastAuxid
  let c := { c with lastAuxid := auxid }
  if cnt = 0 then ((h, c), some (.setFunc .exhausted)) else (c.create self h auxid, none)

/-- `add_conn(auxid)`. -/
def addConnAs (c : Crofchan) (self : ℕ) (h : ConnHeap) (auxid : Auxid) : ConnHeap × Crofchan :=
  match c.conns.find? auxid with
  | none => c.create self h auxid
  | some old => c.create self (h.free old) auxid

/-- `add_conn(conn)` of a connection on the heap: the one in its place is let go,
still open. -/
def attach (c : Crofchan) (self : ℕ) (h : ConnHeap) (id : ℕ) : ConnHeap × Crofchan :=
  let auxid := (h.conn id).auxid
  let h' :=
    match c.conns.find? auxid with
    | none => h
    | some old => h.retire old
  (h'.setEnv id (some self),
    { c with
      conns := c.conns.insert auxid id
      ofpVersion := if auxid = 0 then (h.conn id).version else c.ofpVersion })

/-- `set_conn(auxid)`. -/
def setConn (c : Crofchan) (self : ℕ) (h : ConnHeap) (auxid : Auxid) : ConnHeap × Crofchan :=
  match c.conns.find? auxid with
  | none => c.create self h auxid
  | some _ => (h, c)

/-! ### Dropping -/

/-- Let go and closed, which nobody is told. -/
def release (h : ConnHeap) (id : ℕ) : ConnHeap := (h.down id).retire id

def clear (c : Crofchan) (h : ConnHeap) : ConnHeap × Crofchan :=
  (c.conns.values.foldl release h, { c with conns := .empty })

def dropConn (c : Crofchan) (h : ConnHeap) (auxid : Auxid) : ConnHeap × Crofchan :=
  if auxid = 0 then c.clear h
  else
    match c.conns.find? auxid with
    | none => (h, c)
    | some id => (release h id, { c with conns := c.conns.erase auxid })

/-! ### What the connections report -/

/-- A connection that takes itself for the main one gives the channel its
version. -/
def handleEstablished (c : Crofchan) (h : ConnHeap) (id : ℕ) (ofpVersion : UInt8) : Crofchan :=
  if (h.conn id).auxid = 0 then { c with ofpVersion } else c

/-- The loop over the connections when the main one is closed, and whether it has
got stuck. Closing one that takes itself for the main one starts the loop again,
and again. -/
def closeAll (h : ConnHeap) : List (Auxid × ℕ) → Option (ConnHeap × Bool)
  | [] => some (h, false)
  | (auxid, id) :: es =>
    if auxid = 0 then
      closeAll (if (h.conn id).passive then h.retire id else h) es
    else if (h.env id).isNone then
      closeAll (if (h.conn id).passive then (h.down id).retire id else h.down id) es
    else if (h.conn id).auxid = 0 then none
    else if (h.conn id).passive then some (h.down id, true)
    else closeAll (h.down id) es

def handleClosed (c : Crofchan) (h : ConnHeap) (id : ℕ) : Option (ConnHeap × Crofchan) :=
  if (h.conn id).auxid = 0 then
    match closeAll h c.conns.entries with
    | none => none
    | some (h, true) => some (h, { c with blocked := true })
    | some (h, false) => some (h, { c with conns := c.conns.filter fun _ id => !(h.conn id).passive })
  else if (h.conn id).passive ∧ ¬ c.blocked ∧ (c.conns.find? (h.conn id).auxid).isSome then
    some (h.retire id, { c with conns := c.conns.erase (h.conn id).auxid })
  else some (h, c)

/-! ## What the operations do -/

theorem passive_down (h : ConnHeap) (id i : ℕ) : ((h.down id).conn i).passive = (h.conn i).passive := by
  by_cases hi : i = id
  · simp [ConnHeap.down, ConnHeap.modify, hi]
  · simp [ConnHeap.down, ConnHeap.modify, hi]

theorem env_retire {h : ConnHeap} {id i : ℕ} (hi : i ≠ id) : (h.retire id).env i = h.env i :=
  Function.update_of_ne hi _ _

/-- The loop leaves it as it is who is passive, and gets stuck where an auxiliary
connection is passive and reports to a channel. -/
theorem closeAll_spec {h h' : ConnHeap} {es : List (Auxid × ℕ)} {b : Bool} (hnodup : (es.map Prod.snd).Nodup)
    (hclose : closeAll h es = some (h', b)) : (∀ i, (h'.conn i).passive = (h.conn i).passive) ∧
    (b = true ↔ ∃ e ∈ es, e.1 ≠ 0 ∧ (h.env e.2).isSome ∧ (h.conn e.2).passive = true) := by
  induction es generalizing h with
  | nil =>
    simp only [closeAll, Option.some.injEq, Prod.mk.injEq] at hclose
    obtain ⟨rfl, rfl⟩ := hclose
    simp
  | cons e es ih =>
    obtain ⟨auxid, id⟩ := e
    obtain ⟨hid, hnodup⟩ := List.nodup_cons.mp hnodup
    -- what is left of the loop sees the others as they were
    have hrest : ∀ {m : ConnHeap}, (∀ i, (m.conn i).passive = (h.conn i).passive) → (∀ i, i ≠ id → m.env i = h.env i) →
        ((∃ e ∈ es, e.1 ≠ 0 ∧ (m.env e.2).isSome ∧ (m.conn e.2).passive = true) ↔
          ∃ e ∈ es, e.1 ≠ 0 ∧ (h.env e.2).isSome ∧ (h.conn e.2).passive = true) := by
      intro m hpassive henv
      refine exists_congr fun e => and_congr_right fun he => ?_
      have hne : e.2 ≠ id := fun heq => hid (List.mem_map.mpr ⟨e, he, heq⟩)
      rw [hpassive, henv _ hne]
    have hgo : ∀ {m : ConnHeap}, (∀ i, (m.conn i).passive = (h.conn i).passive) → (∀ i, i ≠ id → m.env i = h.env i) →
        closeAll m es = some (h', b) → (∀ i, (h'.conn i).passive = (h.conn i).passive) ∧
          (b = true ↔ ∃ e ∈ es, e.1 ≠ 0 ∧ (h.env e.2).isSome ∧ (h.conn e.2).passive = true) := by
      intro m hpassive henv hm
      obtain ⟨hsame, hstuck⟩ := ih hnodup hm
      exact ⟨fun i => (hsame i).trans (hpassive i), hstuck.trans (hrest hpassive henv)⟩
    simp only [List.mem_cons, exists_eq_or_imp]
    unfold closeAll at hclose
    split_ifs at hclose with hmain hpassive hdetached hpassive hself hpassive
    · simpa [hmain] using hgo (m := h.retire id) (fun _ => rfl) (fun i hi => env_retire hi) hclose
    · simpa [hmain] using hgo (fun _ => rfl) (fun i hi => rfl) hclose
    · have hnot : (h.env id).isSome = false := by simpa using hdetached
      simpa [hnot] using hgo (m := (h.down id).retire id) (passive_down h id) (fun i hi => env_retire hi) hclose
    · have hnot : (h.env id).isSome = false := by simpa using hdetached
      simpa [hnot] using hgo (passive_down h id) (fun i hi => rfl) hclose
    · simp only [Option.some.injEq, Prod.mk.injEq] at hclose
      obtain ⟨rfl, rfl⟩ := hclose
      have hsome : (h.env id).isSome = true := by simpa [Option.isSome_iff_ne_none] using hdetached
      exact ⟨passive_down h id, by simp [hmain, hsome, hpassive]⟩
    · simpa [hpassive] using hgo (passive_down h id) (fun i hi => rfl) hclose

theorem conn_alloc_of_lt {h : ConnHeap} {id : ℕ} (hid : id < h.next) (c : ChanConn) (env : Option ℕ) :
    (h.alloc c env).conn id = h.conn id := Function.update_of_ne hid.ne _ _

theorem env_alloc_of_lt {h : ConnHeap} {id : ℕ} (hid : id < h.next) (c : ChanConn) (env : Option ℕ) :
    (h.alloc c env).env id = h.env id := Function.update_of_ne hid.ne _ _

/-- The connection a channel adds, and the one it lets go for it. -/
theorem attach_spec {h heap : ConnHeap} {ch chan : Crofchan} {c : ChanConn} {d : ℕ}
    (hattach : ch.attach d (h.alloc c none) h.next = (heap, chan)) :
    heap.next = h.next + 1 ∧ (∀ i < h.next, heap.conn i = h.conn i) ∧ heap.conn h.next = c ∧
      heap.env h.next = some d ∧ chan.conns = ch.conns.insert c.auxid h.next ∧ chan.blocked = ch.blocked ∧
      (∀ i, i ≠ h.next → heap.env i = if ch.conns.find? c.auxid = some i then none else h.env i) ∧
      heap.connsDeletion = h.connsDeletion ++ (ch.conns.find? c.auxid).toList := by
  have hnew : (h.alloc c none).conn h.next = c := Function.update_self _ _ _
  have hold : ∀ i < h.next, (h.alloc c none).conn i = h.conn i := fun i hi => conn_alloc_of_lt hi c none
  simp only [Crofchan.attach, hnew, Prod.mk.injEq] at hattach
  obtain ⟨rfl, rfl⟩ := hattach
  cases hplace : ch.conns.find? c.auxid with
  | none =>
    refine ⟨rfl, hold, hnew, Function.update_self _ _ _, rfl, rfl, fun i hi => ?_, (List.append_nil _).symm⟩
    simp [ConnHeap.setEnv, ConnHeap.alloc, hi]
  | some old =>
    refine ⟨rfl, hold, hnew, Function.update_self _ _ _, rfl, rfl, fun i hi => ?_, rfl⟩
    simp only [ConnHeap.setEnv, ConnHeap.retire, ConnHeap.alloc, Function.update_of_ne hi, Function.update_apply,
      Option.some.injEq, eq_comm (a := old)]

/-- These connections are scheduled for deletion, in this order, and reported to
nobody any more; the others report to whom they did. Connections may have been
closed on the way. -/
structure LetsGo (h h' : ConnHeap) (ids : List ℕ) : Prop where
  next : h'.next = h.next
  auxid : ∀ i, (h'.conn i).auxid = (h.conn i).auxid
  dpid : ∀ i, (h'.conn i).dpid = (h.conn i).dpid
  passive : ∀ i, (h'.conn i).passive = (h.conn i).passive
  established : ∀ i, (h'.conn i).established = true → (h.conn i).established = true
  env : ∀ i, h'.env i = if i ∈ ids then none else h.env i
  connsDeletion : h'.connsDeletion = h.connsDeletion ++ ids

namespace LetsGo

variable {h m h' : ConnHeap} {ids ids' : List ℕ}

theorem trans (hm : LetsGo h m ids) (hm' : LetsGo m h' ids') : LetsGo h h' (ids ++ ids') where
  next := hm'.next.trans hm.next
  auxid i := (hm'.auxid i).trans (hm.auxid i)
  dpid i := (hm'.dpid i).trans (hm.dpid i)
  passive i := (hm'.passive i).trans (hm.passive i)
  established i hi := hm.established i (hm'.established i hi)
  env i := by
    rw [hm'.env, hm.env]
    by_cases hi : i ∈ ids' <;> by_cases hi' : i ∈ ids <;> simp [hi, hi']
  connsDeletion := by rw [hm'.connsDeletion, hm.connsDeletion, List.append_assoc]

theorem down (h : ConnHeap) (id : ℕ) : LetsGo h (h.down id) [] := by
  have hconn : ∀ i, (h.down id).conn i = if i = id then { h.conn id with established := false } else h.conn i := by
    intro i
    simp only [ConnHeap.down, ConnHeap.modify, Function.update_apply]
  refine ⟨rfl, fun i => ?_, fun i => ?_, fun i => ?_, fun i => ?_, fun i => rfl, (List.append_nil _).symm⟩
  all_goals
    rw [hconn]
    split_ifs with hi <;> simp [hi]

theorem retire (h : ConnHeap) (id : ℕ) : LetsGo h (h.retire id) [id] where
  next := rfl
  auxid _ := rfl
  dpid _ := rfl
  passive _ := rfl
  established _ hi := hi
  env i := by
    simp only [ConnHeap.retire, ConnHeap.setEnv, Function.update_apply, List.mem_singleton]
  connsDeletion := rfl

theorem release (h : ConnHeap) (id : ℕ) : LetsGo h (Crofchan.release h id) [id] := (down h id).trans (retire _ id)

theorem foldl_release (h : ConnHeap) (ids : List ℕ) : LetsGo h (ids.foldl Crofchan.release h) ids := by
  induction ids generalizing h with
  | nil => exact ⟨rfl, fun _ => rfl, fun _ => rfl, fun _ => rfl, fun _ hi => hi, fun _ => rfl, (List.append_nil _).symm⟩
  | cons id ids ih => exact (release h id).trans (ih _)

end LetsGo

/-- What is closed on the way is not established afterwards. -/
theorem established_down (h : ConnHeap) (id : ℕ) : ((h.down id).conn id).established = false := by
  simp [ConnHeap.down, ConnHeap.modify]

theorem established_foldl_release {h : ConnHeap} {ids : List ℕ} {id : ℕ} (hid : id ∈ ids) :
    ((ids.foldl release h).conn id).established = false := by
  induction ids generalizing h with
  | nil => cases hid
  | cons i ids ih =>
    cases List.mem_cons.mp hid with
    | inl heq =>
      have hdown : ((release h i).conn id).established = false := by
        rw [heq]
        exact established_down h i
      have hgo := (LetsGo.foldl_release (release h i) ids).established id
      rw [List.foldl_cons]
      simpa [hdown] using hgo
    | inr hmem => exact ih hmem

theorem next_closeAll {h h' : ConnHeap} {es : List (Auxid × ℕ)} {b : Bool} (hclose : closeAll h es = some (h', b)) :
    h'.next = h.next := by
  induction es generalizing h with
  | nil =>
    simp only [closeAll, Option.some.injEq, Prod.mk.injEq] at hclose
    rw [← hclose.1]
  | cons e es ih =>
    unfold closeAll at hclose
    split_ifs at hclose with hmain hpassive hdetached hpassive hself hpassive
    · exact (ih hclose).trans rfl
    · exact (ih hclose).trans rfl
    · exact (ih hclose).trans rfl
    · exact (ih hclose).trans rfl
    · simp only [Option.some.injEq, Prod.mk.injEq] at hclose
      rw [← hclose.1]
      rfl
    · exact (ih hclose).trans rfl

/-- The loop opens nothing. -/
theorem established_closeAll {h h' : ConnHeap} {es : List (Auxid × ℕ)} {b : Bool}
    (hclose : closeAll h es = some (h', b)) (i : ℕ) (hi : (h'.conn i).established = true) :
    (h.conn i).established = true := by
  induction es generalizing h with
  | nil =>
    simp only [closeAll, Option.some.injEq, Prod.mk.injEq] at hclose
    rw [hclose.1]
    exact hi
  | cons e es ih =>
    unfold closeAll at hclose
    split_ifs at hclose with hmain hpassive hdetached hpassive hself hpassive
    · exact (LetsGo.retire h e.2).established i (ih hclose)
    · exact ih hclose
    · exact (LetsGo.release h e.2).established i (ih hclose)
    · exact (LetsGo.down h e.2).established i (ih hclose)
    · simp only [Option.some.injEq, Prod.mk.injEq] at hclose
      rw [← hclose.1] at hi
      exact (LetsGo.down h e.2).established i hi
    · exact (LetsGo.down h e.2).established i (ih hclose)

theorem established_handleClosed {c c' : Crofchan} {h h' : ConnHeap} {id : ℕ}
    (hclosed : c.handleClosed h id = some (h', c')) (i : ℕ) (hi : (h'.conn i).established = true) :
    (h.conn i).established = true := by
  unfold handleClosed at hclosed
  split_ifs at hclosed
  · split at hclosed
    next => cases hclosed
    next heq =>
      obtain ⟨rfl, -⟩ := Prod.mk.inj (Option.some.inj hclosed)
      exact established_closeAll heq i hi
    next heq =>
      obtain ⟨rfl, -⟩ := Prod.mk.inj (Option.some.inj hclosed)
      exact established_closeAll heq i hi
  · obtain ⟨rfl, -⟩ := Prod.mk.inj (Option.some.inj hclosed)
    exact hi
  · obtain ⟨rfl, -⟩ := Prod.mk.inj (Option.some.inj hclosed)
    exact hi

theorem next_foldl_release (h : ConnHeap) (ids : List ℕ) : (ids.foldl release h).next = h.next :=
  (LetsGo.foldl_release h ids).next

end Crofchan

end RoflCommon
