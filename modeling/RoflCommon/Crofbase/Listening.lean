/-
The listening sockets of a base: `dpt_sockets` and `ctl_sockets`, and what is done to the
descriptors in them.

The functions for datapaths and for controllers are written twice. `ctl_sock_close` closes
what `operator[]` finds under the address in `dpt_sockets`, and makes an entry there with
descriptor 0 where it finds nothing. In `sockets[baddr] = listen(baddr)` the compiler may
call `operator[]` first (`indexFirst`; the order is defined from C++17 on, and the library
is built as C++14): then a `listen` that throws leaves such an entry behind, too. Without
these two the descriptors are kept (`keeps_iff_meets`).
-/
import RoflCommon.Lib.Omap
import RoflCommon.Lib.Runs
import Mathlib.Logic.Function.Basic

namespace RoflCommon

/-- Which of the two maps. -/
inductive SockSide
  | dpt
  | ctl
deriving DecidableEq, Repr

/-- What is done to a descriptor, by the system and by the thread that reads from it. -/
inductive FdCall
  | close (fd : ℕ)
  | addFd (fd : ℕ)
  | addReadFd (fd : ℕ)
  | dropReadFd (fd : ℕ)
deriving DecidableEq, Repr

namespace FdCall

def closed? : FdCall → Option ℕ
  | close fd => some fd
  | addFd _ | addReadFd _ | dropReadFd _ => none

end FdCall

structure ListenSockets (κ : Type*) [LinearOrder κ] where
  sockets : SockSide → Omap κ ℕ
  /-- What has been done so far. -/
  calls : List FdCall
  /-- What `listen` has returned so far. -/
  opened : List ℕ

namespace ListenSockets

variable {κ : Type*} [LinearOrder κ]

def new : ListenSockets κ := ⟨fun _ => .empty, [], []⟩

/-- The descriptors that have been closed. -/
def closed (s : ListenSockets κ) : List ℕ := s.calls.filterMap FdCall.closed?

def set (s : ListenSockets κ) (side : SockSide) (m : Omap κ ℕ) : ListenSockets κ :=
  { s with sockets := Function.update s.sockets side m }

def call (s : ListenSockets κ) (calls : List FdCall) : ListenSockets κ := { s with calls := s.calls ++ calls }

/-- `operator[]`. -/
def index (s : ListenSockets κ) (side : SockSide) (baddr : κ) : ℕ × ListenSockets κ :=
  match (s.sockets side).find? baddr with
  | some fd => (fd, s)
  | none => (0, s.set side ((s.sockets side).insert baddr 0))

/-! ## The functions

Each is there for both maps. `listen` answers with a descriptor nobody has had before, or
throws. -/

def closeSocks (s : ListenSockets κ) (side : SockSide) : ListenSockets κ :=
  (s.call ((s.sockets side).values.flatMap fun fd => [.close fd, .dropReadFd fd])).set side .empty

def sockListen (s : ListenSockets κ) (indexFirst : Bool) (side : SockSide) (baddr : κ) (listen : Option ℕ) :
    Option (ListenSockets κ) :=
  match (s.sockets side).find? baddr with
  | some _ => some s
  | none =>
    match listen with
    | none => some (if indexFirst then (s.index side baddr).2 else s)
    | some fd =>
      if fd ∈ s.opened then none
      else
        let s := { s with opened := s.opened ++ [fd] }
        some ((s.set side ((s.sockets side).insert baddr fd)).call [.addFd fd, .addReadFd fd])

/-- `::close` is called with what is found in `other`. -/
def sockClose (s : ListenSockets κ) (side other : SockSide) (baddr : κ) : ListenSockets κ × Bool :=
  match (s.sockets side).find? baddr with
  | none => (s, false)
  | some fd =>
    let (closing, s) := s.index other baddr
    ((s.call [.close closing, .dropReadFd fd]).set side ((s.sockets side).erase baddr), true)

def closeDptSocks (s : ListenSockets κ) : ListenSockets κ := s.closeSocks .dpt

def dptSockListen (s : ListenSockets κ) (indexFirst : Bool) : κ → Option ℕ → Option (ListenSockets κ) :=
  s.sockListen indexFirst .dpt

def dptSockClose (s : ListenSockets κ) : κ → ListenSockets κ × Bool := s.sockClose .dpt .dpt

def closeCtlSocks (s : ListenSockets κ) : ListenSockets κ := s.closeSocks .ctl

def ctlSockListen (s : ListenSockets κ) (indexFirst : Bool) : κ → Option ℕ → Option (ListenSockets κ) :=
  s.sockListen indexFirst .ctl

/-- The wrong map. -/
def ctlSockClose (s : ListenSockets κ) : κ → ListenSockets κ × Bool := s.sockClose .ctl .dpt

inductive Act (κ : Type*)
  | closeDptSocks
  | dptSockListen (baddr : κ) (listen : Option ℕ)
  | dptSockClose (baddr : κ)
  | closeCtlSocks
  | ctlSockListen (baddr : κ) (listen : Option ℕ)
  | ctlSockClose (baddr : κ)

def step (indexFirst : Bool) (s : ListenSockets κ) : Act κ → Option (ListenSockets κ)
  | .closeDptSocks => some s.closeDptSocks
  | .dptSockListen baddr listen => s.dptSockListen indexFirst baddr listen
  | .dptSockClose baddr => some (s.dptSockClose baddr).1
  | .closeCtlSocks => some s.closeCtlSocks
  | .ctlSockListen baddr listen => s.ctlSockListen indexFirst baddr listen
  | .ctlSockClose baddr => some (s.ctlSockClose baddr).1

/-! ## What is to hold -/

/-- The map the operation is about. -/
def Act.side : Act κ → SockSide
  | .closeDptSocks | .dptSockListen _ _ | .dptSockClose _ => .dpt
  | .closeCtlSocks | .ctlSockListen _ _ | .ctlSockClose _ => .ctl

/-- The other map stays, and the descriptors of the entries that go are closed, and no
others. -/
structure Keeps (s : ListenSockets κ) (a : Act κ) (s' : ListenSockets κ) : Prop where
  frame : ∀ side, side ≠ a.side → s'.sockets side = s.sockets side
  closes : ∃ fds, s'.closed = s.closed ++ fds ∧ ∀ fd, fd ∈ fds ↔
    ∃ side baddr, (s.sockets side).find? baddr = some fd ∧ (s'.sockets side).find? baddr ≠ some fd

/-- Each entry has a descriptor of its own that has been opened and not been closed; every
other that has been opened has been closed, once. -/
structure Sound (s : ListenSockets κ) : Prop where
  live : ∀ side baddr fd, (s.sockets side).find? baddr = some fd → fd ∈ s.opened ∧ fd ∉ s.closed
  distinct : ∀ side side' baddr baddr' fd, (s.sockets side).find? baddr = some fd →
    (s.sockets side').find? baddr' = some fd → side = side' ∧ baddr = baddr'
  accounted : ∀ fd ∈ s.opened, fd ∈ s.closed ∨ ∃ side baddr, (s.sockets side).find? baddr = some fd
  once : s.closed.Nodup
  ours : ∀ fd ∈ s.closed, fd ∈ s.opened

theorem sound_new : (new : ListenSockets κ).Sound where
  live _ _ _ h := by cases h
  distinct _ _ _ _ _ h := by cases h
  accounted _ h := by cases h
  once := .nil
  ours _ h := by cases h

/-- No controller socket that is there is closed by its address, and where `operator[]`
comes first, no `listen` throws. -/
def Ok (indexFirst : Bool) (s : ListenSockets κ) : Act κ → Prop
  | .ctlSockClose baddr => (s.sockets .ctl).find? baddr = none
  | .dptSockListen baddr none => indexFirst = true → (s.sockets .dpt).find? baddr ≠ none
  | .ctlSockListen baddr none => indexFirst = true → (s.sockets .ctl).find? baddr ≠ none
  | .closeDptSocks | .dptSockListen _ (some _) | .dptSockClose _ | .closeCtlSocks | .ctlSockListen _ (some _) => True

/-! ## What a call does -/

variable {s s' : ListenSockets κ} {side : SockSide} {a : Act κ}

@[simp] theorem sockets_set_self (m : Omap κ ℕ) : (s.set side m).sockets side = m := Function.update_self _ _ _

theorem sockets_set_of_ne {other : SockSide} (h : other ≠ side) (m : Omap κ ℕ) :
    (s.set side m).sockets other = s.sockets other := Function.update_of_ne h _ _

@[simp] theorem opened_set (m : Omap κ ℕ) : (s.set side m).opened = s.opened := rfl

@[simp] theorem closed_set (m : Omap κ ℕ) : (s.set side m).closed = s.closed := rfl

@[simp] theorem sockets_call (calls : List FdCall) : (s.call calls).sockets = s.sockets := rfl

@[simp] theorem opened_call (calls : List FdCall) : (s.call calls).opened = s.opened := rfl

@[simp] theorem closed_call (calls : List FdCall) :
    (s.call calls).closed = s.closed ++ calls.filterMap FdCall.closed? := List.filterMap_append

/-- A step that takes entries out of one map, and closes their descriptors. -/
structure Removes (s : ListenSockets κ) (side : SockSide) (fds : List ℕ) (s' : ListenSockets κ) : Prop where
  others : ∀ other, other ≠ side → s'.sockets other = s.sockets other
  sub : ∀ baddr fd, (s'.sockets side).find? baddr = some fd → (s.sockets side).find? baddr = some fd
  closed : s'.closed = s.closed ++ fds
  opened : s'.opened = s.opened
  nodup : fds.Nodup
  mem : ∀ fd, fd ∈ fds ↔
    ∃ baddr, (s.sockets side).find? baddr = some fd ∧ (s'.sockets side).find? baddr ≠ some fd

theorem Removes.keeps {fds : List ℕ} (h : s.Removes side fds s') (hside : side = a.side) : s.Keeps a s' where
  frame other hother := h.others other (hside ▸ hother)
  closes := by
    refine ⟨fds, h.closed, fun fd => (h.mem fd).trans ⟨fun ⟨baddr, hb⟩ => ⟨side, baddr, hb⟩, ?_⟩⟩
    intro ⟨other, baddr, hbefore, hafter⟩
    by_cases hother : other = side
    · subst hother
      exact ⟨baddr, hbefore, hafter⟩
    · rw [h.others other hother] at hafter
      exact absurd hbefore hafter

theorem Removes.find? {fds : List ℕ} (h : s.Removes side fds s') {other : SockSide} {baddr : κ} {fd : ℕ}
    (hfd : (s'.sockets other).find? baddr = some fd) : (s.sockets other).find? baddr = some fd := by
  by_cases hother : other = side
  · subst hother
    exact h.sub baddr fd hfd
  · rwa [h.others other hother] at hfd

theorem Removes.sound {fds : List ℕ} (h : s.Removes side fds s') (hs : s.Sound) : s'.Sound := by
  have hheld : ∀ fd ∈ fds, fd ∈ s.opened ∧ fd ∉ s.closed := by
    intro fd hfd
    obtain ⟨baddr, hbefore, -⟩ := (h.mem fd).mp hfd
    exact hs.live side baddr fd hbefore
  refine ⟨fun other baddr fd hfd => ?_, fun other other' baddr baddr' fd hfd hfd' =>
    hs.distinct other other' baddr baddr' fd (h.find? hfd) (h.find? hfd'), fun fd hfd => ?_, ?_, fun fd hfd => ?_⟩
  · obtain ⟨hopened, hopen⟩ := hs.live other baddr fd (h.find? hfd)
    refine ⟨h.opened ▸ hopened, fun hclosed => ?_⟩
    rw [h.closed, List.mem_append] at hclosed
    obtain ⟨baddr', hbefore, hafter⟩ := (h.mem fd).mp (hclosed.resolve_left hopen)
    obtain ⟨rfl, rfl⟩ := hs.distinct other side baddr baddr' fd (h.find? hfd) hbefore
    exact hafter hfd
  · rw [h.opened] at hfd
    rw [h.closed, List.mem_append]
    rcases hs.accounted fd hfd with hclosed | ⟨other, baddr, hbefore⟩
    · exact .inl (.inl hclosed)
    · by_cases hafter : (s'.sockets other).find? baddr = some fd
      · exact .inr ⟨other, baddr, hafter⟩
      · by_cases hother : other = side
        · subst hother
          exact .inl (.inr ((h.mem fd).mpr ⟨baddr, hbefore, hafter⟩))
        · rw [h.others other hother] at hafter
          exact absurd hbefore hafter
  · rw [h.closed]
    refine List.nodup_append.mpr ⟨hs.once, h.nodup, fun fd hfd fd' hfd' heq => ?_⟩
    exact (hheld fd' hfd').2 (heq ▸ hfd)
  · rw [h.closed, List.mem_append] at hfd
    rw [h.opened]
    exact hfd.elim (hs.ours fd) fun hfd => (hheld fd hfd).1

theorem removes_closeSocks (hs : s.Sound) (side : SockSide) :
    s.Removes side (s.sockets side).values (s.closeSocks side) := by
  have hcalls : ∀ fds : List ℕ,
      (fds.flatMap fun fd => [FdCall.close fd, .dropReadFd fd]).filterMap FdCall.closed? = fds := by
    intro fds
    induction fds with
    | nil => rfl
    | cons fd fds ih => simp [List.filterMap_cons, FdCall.closed?, ih]
  refine ⟨fun other hother => sockets_set_of_ne hother _, fun baddr fd hfd => ?_, ?_, rfl, ?_, fun fd => ?_⟩
  · rw [closeSocks, sockets_set_self, Omap.find?_empty] at hfd
    cases hfd
  · rw [closeSocks, closed_set, closed_call, hcalls]
  · exact Omap.nodup_values fun k k' fd hk hk' => (hs.distinct side side k k' fd hk hk').2
  · rw [closeSocks, sockets_set_self]
    simp only [Omap.find?_empty, Omap.values, List.mem_map]
    constructor
    · rintro ⟨e, he, hfd⟩
      refine ⟨e.1, Omap.find?_eq_some.mpr ?_, by simp⟩
      rw [← hfd]
      exact he
    · rintro ⟨baddr, hbefore, _⟩
      exact ⟨(baddr, fd), Omap.find?_eq_some.mp hbefore, rfl⟩

/-- An address without a socket. -/
theorem removes_nothing (s : ListenSockets κ) (side : SockSide) : s.Removes side [] s where
  others _ _ := rfl
  sub _ _ h := h
  closed := (List.append_nil _).symm
  opened := rfl
  nodup := .nil
  mem fd := by simp

/-- The right map: `operator[]` finds the entry. -/
theorem removes_sockClose (s : ListenSockets κ) (side : SockSide) (baddr : κ) :
    ∃ fds, s.Removes side fds (s.sockClose side side baddr).1 := by
  cases hfind : (s.sockets side).find? baddr with
  | none =>
    refine ⟨[], ?_⟩
    simp only [sockClose, hfind]
    exact removes_nothing s side
  | some fd =>
    have hclose : (s.sockClose side side baddr).1 =
        (s.call [.close fd, .dropReadFd fd]).set side ((s.sockets side).erase baddr) := by
      simp only [sockClose, index, hfind]
    rw [hclose]
    refine ⟨[fd], fun other hother => sockets_set_of_ne hother _, fun k d hd => ?_, ?_, rfl, List.nodup_singleton fd,
      fun d => ?_⟩
    · rw [sockets_set_self, Omap.find?_erase] at hd
      split_ifs at hd
      exact hd
    · rw [closed_set, closed_call]
      rfl
    · rw [sockets_set_self, List.mem_singleton]
      constructor
      · rintro rfl
        exact ⟨baddr, hfind, by simp⟩
      · intro ⟨k, hbefore, hafter⟩
        by_cases hk : k = baddr
        · rw [hk, hfind] at hbefore
          exact (Option.some.inj hbefore).symm
        · rw [Omap.find?_erase, if_neg hk] at hafter
          exact absurd hbefore hafter

/-- A socket is there already, or a `listen` throws and nothing is left of it. -/
theorem removes_sockListen {indexFirst : Bool} {baddr : κ} {listen : Option ℕ}
    (h : (s.sockets side).find? baddr ≠ none ∨ listen = none ∧ indexFirst = false)
    (hstep : s.sockListen indexFirst side baddr listen = some s') : s.Removes side [] s' := by
  unfold sockListen at hstep
  cases hfind : (s.sockets side).find? baddr with
  | some fd =>
    rw [hfind] at hstep
    obtain rfl := Option.some.inj hstep
    exact removes_nothing s side
  | none =>
    obtain ⟨rfl, rfl⟩ := h.resolve_left (by simp [hfind])
    rw [hfind] at hstep
    obtain rfl := Option.some.inj hstep
    exact removes_nothing s side

/-- A socket that has been opened: the descriptor is new, and the entry is its own. -/
structure Adds (s : ListenSockets κ) (side : SockSide) (baddr : κ) (fd : ℕ) (s' : ListenSockets κ) : Prop where
  free : (s.sockets side).find? baddr = none
  fresh : fd ∉ s.opened
  others : ∀ other, other ≠ side → s'.sockets other = s.sockets other
  sockets : s'.sockets side = (s.sockets side).insert baddr fd
  closed : s'.closed = s.closed
  opened : s'.opened = s.opened ++ [fd]

theorem adds_sockListen {indexFirst : Bool} {baddr : κ} {fd : ℕ} (hfind : (s.sockets side).find? baddr = none)
    (hstep : s.sockListen indexFirst side baddr (some fd) = some s') : s.Adds side baddr fd s' := by
  simp only [sockListen, hfind] at hstep
  split_ifs at hstep with hfresh
  obtain rfl := Option.some.inj hstep
  refine ⟨hfind, hfresh, fun other hother => sockets_set_of_ne hother _, sockets_set_self _, ?_, rfl⟩
  rw [closed_call]
  exact List.append_nil _

namespace Adds

variable {baddr : κ} {fd : ℕ}

theorem find? (h : s.Adds side baddr fd s') {other : SockSide} {k : κ} {d : ℕ} :
    (s'.sockets other).find? k = some d ↔
      (other = side ∧ k = baddr ∧ d = fd) ∨ (s.sockets other).find? k = some d := by
  by_cases hother : other = side
  · subst hother
    rw [h.sockets, Omap.find?_insert]
    by_cases hk : k = baddr
    · subst hk
      simp [h.free, eq_comm]
    · simp [hk]
  · rw [h.others other hother]
    simp [hother]

theorem keeps (h : s.Adds side baddr fd s') (hside : side = a.side) : s.Keeps a s' where
  frame other hother := h.others other (hside ▸ hother)
  closes := by
    refine ⟨[], by rw [h.closed, List.append_nil], fun d => iff_of_false List.not_mem_nil ?_⟩
    intro ⟨other, k, hbefore, hafter⟩
    exact hafter (h.find?.mpr (.inr hbefore))

theorem sound (h : s.Adds side baddr fd s') (hs : s.Sound) : s'.Sound := by
  have hopen : fd ∉ s.closed := fun hclosed => h.fresh (hs.ours fd hclosed)
  have hnew : ∀ {other k}, (s.sockets other).find? k ≠ some fd := fun hfd => h.fresh (hs.live _ _ fd hfd).1
  refine ⟨fun other k d hd => ?_, fun other other' k k' d hd hd' => ?_, fun d hd => ?_, h.closed ▸ hs.once,
    fun d hd => ?_⟩
  · rw [h.opened, h.closed]
    rcases h.find?.mp hd with ⟨-, -, rfl⟩ | hd
    · exact ⟨List.mem_append_right _ List.mem_cons_self, hopen⟩
    · exact ⟨List.mem_append_left _ (hs.live other k d hd).1, (hs.live other k d hd).2⟩
  · rcases h.find?.mp hd with ⟨rfl, rfl, rfl⟩ | hd
    · rcases h.find?.mp hd' with ⟨rfl, rfl, -⟩ | hd'
      · exact ⟨rfl, rfl⟩
      · exact absurd hd' hnew
    · rcases h.find?.mp hd' with ⟨rfl, rfl, rfl⟩ | hd'
      · exact absurd hd hnew
      · exact hs.distinct other other' k k' d hd hd'
  · rw [h.opened, List.mem_append, List.mem_singleton] at hd
    rw [h.closed]
    rcases hd with hd | rfl
    · rcases hs.accounted d hd with hclosed | ⟨other, k, hk⟩
      · exact .inl hclosed
      · exact .inr ⟨other, k, h.find?.mpr (.inr hk)⟩
    · exact .inr ⟨side, baddr, h.find?.mpr (.inl ⟨rfl, rfl, rfl⟩)⟩
  · rw [h.closed] at hd
    rw [h.opened]
    exact List.mem_append_left _ (hs.ours d hd)

end Adds

/-! ## What breaks it -/

/-- `operator[]` comes first, and `listen` throws: an entry with descriptor 0, which has not
been opened or is another socket's. -/
theorem not_sound_of_throw {baddr : κ} (hs : s.Sound) (hfind : (s.sockets side).find? baddr = none)
    (hstep : s.sockListen true side baddr none = some s') : ¬s'.Sound := by
  simp only [sockListen, index, hfind, if_true, Option.some.injEq] at hstep
  subst hstep
  intro hs'
  have hzero : ((s.set side ((s.sockets side).insert baddr 0)).sockets side).find? baddr = some 0 := by simp
  obtain ⟨hopened, hopen⟩ := hs'.live side baddr 0 hzero
  obtain ⟨other, k, hk⟩ := (hs.accounted 0 hopened).resolve_left hopen
  have hk' : ((s.set side ((s.sockets side).insert baddr 0)).sockets other).find? k = some 0 := by
    by_cases hother : other = side
    · subst hother
      rw [sockets_set_self, Omap.find?_insert]
      split_ifs
      · rfl
      · exact hk
    · rwa [sockets_set_of_ne hother]
  obtain ⟨rfl, rfl⟩ := hs'.distinct side other baddr k 0 hzero hk'
  rw [hfind] at hk
  cases hk

/-- The wrong map: it gets an entry, or a descriptor is closed that stays in it. -/
theorem not_keeps_of_ctlSockClose {baddr : κ} (hs : s.Sound) (hfind : (s.sockets .ctl).find? baddr ≠ none) :
    ¬s.Keeps (.ctlSockClose baddr) (s.ctlSockClose baddr).1 := by
  obtain ⟨fd, hfd⟩ := Option.ne_none_iff_exists'.mp hfind
  intro hkeeps
  have hframe := hkeeps.frame .dpt (show SockSide.dpt ≠ .ctl by decide)
  cases hdpt : (s.sockets .dpt).find? baddr with
  | none =>
    have hset : ((s.ctlSockClose baddr).1.sockets .dpt) = (s.sockets .dpt).insert baddr 0 := by
      simp only [ctlSockClose, sockClose, index, hfd, hdpt]
      rw [sockets_set_of_ne (by decide), sockets_call, sockets_set_self]
    have hzero : ((s.ctlSockClose baddr).1.sockets .dpt).find? baddr = some 0 := by rw [hset]; simp
    rw [hframe, hdpt] at hzero
    cases hzero
  | some d =>
    have hclose : (s.ctlSockClose baddr).1 =
        (s.call [.close d, .dropReadFd fd]).set .ctl ((s.sockets .ctl).erase baddr) := by
      simp only [ctlSockClose, sockClose, index, hfd, hdpt]
    obtain ⟨fds, hclosed, hfds⟩ := hkeeps.closes
    have hgone : fd ∈ fds := (hfds fd).mpr ⟨.ctl, baddr, hfd, by rw [hclose]; simp⟩
    have hone : fds = [d] := by
      rw [hclose, closed_set, closed_call] at hclosed
      exact (List.append_cancel_left hclosed).symm
    rw [hone, List.mem_singleton] at hgone
    subst hgone
    exact absurd (hs.distinct .ctl .dpt baddr baddr fd hfd hdpt).1 (by decide)

/-! ## Every run -/

theorem step_iff {indexFirst : Bool} (hs : s.Sound) (hstep : s.step indexFirst a = some s') :
    s.Keeps a s' ∧ s'.Sound ↔ s.Ok indexFirst a := by
  have hremoved : ∀ {side fds}, s.Removes side fds s' → side = a.side → s.Keeps a s' ∧ s'.Sound :=
    fun h hside => ⟨h.keeps hside, h.sound hs⟩
  have hlisten : ∀ (side : SockSide) {baddr : κ} {listen : Option ℕ}, side = a.side →
      s.sockListen indexFirst side baddr listen = some s' →
      (s.Keeps a s' ∧ s'.Sound ↔ (listen = none → indexFirst = true → (s.sockets side).find? baddr ≠ none)) := by
    intro side baddr listen hside hlisten
    by_cases hfind : (s.sockets side).find? baddr = none
    · cases listen with
      | none =>
        cases indexFirst with
        | false => exact iff_of_true (hremoved (removes_sockListen (.inr ⟨rfl, rfl⟩) hlisten) hside) (by simp)
        | true => exact iff_of_false (fun h => not_sound_of_throw hs hfind hlisten h.2) (by simp [hfind])
      | some fd =>
        have hadds := adds_sockListen hfind hlisten
        exact iff_of_true ⟨hadds.keeps hside, hadds.sound hs⟩ (by simp)
    · exact iff_of_true (hremoved (removes_sockListen (.inl hfind) hlisten) hside) fun _ _ => hfind
  cases a with
  | closeDptSocks =>
    obtain rfl := Option.some.inj hstep
    exact iff_of_true (hremoved (removes_closeSocks hs .dpt) rfl) trivial
  | dptSockListen baddr listen =>
    rw [hlisten .dpt rfl hstep]
    cases listen <;> simp [Ok]
  | dptSockClose baddr =>
    obtain rfl := Option.some.inj hstep
    obtain ⟨fds, h⟩ := removes_sockClose s .dpt baddr
    exact iff_of_true (hremoved h rfl) trivial
  | closeCtlSocks =>
    obtain rfl := Option.some.inj hstep
    exact iff_of_true (hremoved (removes_closeSocks hs .ctl) rfl) trivial
  | ctlSockListen baddr listen =>
    rw [hlisten .ctl rfl hstep]
    cases listen <;> simp [Ok]
  | ctlSockClose baddr =>
    obtain rfl := Option.some.inj hstep
    by_cases hfind : (s.sockets .ctl).find? baddr = none
    · have hnothing : (s.ctlSockClose baddr).1 = s := by simp only [ctlSockClose, sockClose, hfind]
      have hremoves : s.Removes .ctl [] (s.ctlSockClose baddr).1 := by
        rw [hnothing]
        exact removes_nothing s .ctl
      exact iff_of_true (hremoved hremoves rfl) hfind
    · exact iff_of_false (fun h => not_keeps_of_ctlSockClose hs hfind h.1) hfind

/-- **Every step of a run keeps the descriptors exactly when** none closes a controller
socket by its address, and none leaves an entry of a `listen` that throws. -/
theorem keeps_iff_meets {indexFirst : Bool} {acts : List (Act κ)} {s : ListenSockets κ}
    (h : Runs.run (step indexFirst) new acts = some s) :
    Runs.Along (step indexFirst) (fun s a s' => s.Keeps a s' ∧ s'.Sound) new acts ↔
      Runs.Meets (step indexFirst) (Ok indexFirst) new acts := by
  constructor
  · exact Runs.meets_of_along (I := Sound) (fun s a s' hs hok hstep => ((step_iff hs hstep).mpr hok).2)
      (fun s a s' hs hstep hkeeps => (step_iff hs hstep).mp hkeeps) sound_new h
  · exact Runs.along_of_meets (I := Sound) (fun s a s' hs hok hstep => ((step_iff hs hstep).mpr hok).2)
      (fun s a s' hs hok hstep => (step_iff hs hstep).mpr hok) sound_new

/-- Sockets of both sides at one address, closed without the address. -/
theorem keeps_closeCtlSocks : Runs.Along (step true) (fun s a s' => s.Keeps a s' ∧ s'.Sound) (new : ListenSockets ℕ)
    [.dptSockListen 6653 (some 3), .ctlSockListen 6653 (some 4), .closeCtlSocks, .dptSockClose 6653] :=
  (keeps_iff_meets rfl).mpr ⟨trivial, trivial, trivial, trivial, trivial⟩

/-- A datapath socket and a controller socket at one address: closing the second closes the
descriptor of the first, which stays, and leaves its own open. -/
theorem ctlSockClose_closes_dpt : ∃ s : ListenSockets ℕ,
    Runs.run (step false) new
        [.dptSockListen 6653 (some 3), .ctlSockListen 6653 (some 4), .ctlSockClose 6653] = some s ∧
      s.closed = [3] ∧ (s.sockets .dpt).find? 6653 = some 3 ∧
      ¬Runs.Along (step false) (fun s a s' => s.Keeps a s' ∧ s'.Sound) new
        [.dptSockListen 6653 (some 3), .ctlSockListen 6653 (some 4), .ctlSockClose 6653] := by
  refine ⟨_, rfl, rfl, rfl, fun h => ?_⟩
  obtain ⟨-, -, ⟨-, hsound⟩, -⟩ := h
  exact (hsound.live .dpt 6653 3 rfl).2 (by decide)

end ListenSockets
end RoflCommon
