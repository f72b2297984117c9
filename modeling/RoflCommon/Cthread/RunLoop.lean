/-
The loop of a thread, `cthread::run_loop`, with the wakeups of other threads.

A round of the loop waits for events, fires the timers that have expired, and
hands each event to the object whose descriptor it is; the wakeups pending are
handed out when the event is that of `event_fd`. The `try` blocks stand around
the round, around the handlers of one descriptor and, for `eThreadNotFound`
alone, around each wakeup. So an exception that leaves a handler may end the
round, and what the round still had to do is not done
(`complete_of_meets`): the events were reported once, and the wakeups are
no longer in the set.

Handlers run as long as they like, and anything another thread may do, or the
handler itself, may happen meanwhile. How they end, and what the system calls
answer, is chosen from outside. The thread is not stopped.
-/
import RoflCommon.Cthread
import RoflCommon.Lib.Runs
import Mathlib.Logic.Function.Basic
import Mathlib.Tactic.Tauto

namespace RoflCommon

/-- How a handler ends: it returns, or throws `eThreadNotFound` or anything else. -/
inductive HandlerResult
  | returns | notFound | throws
deriving DecidableEq, Repr

/-- `struct epoll_event`. An event with neither flag is an error or a hang-up. -/
inductive EpollEvent
  | eventFd
  | fd (fd : Nat) (epollin epollout : Bool)
deriving DecidableEq, Repr

inductive EventKind
  | read | write | other
deriving DecidableEq, Repr

/-- What an event reports of a descriptor. -/
def EpollEvent.reports : EpollEvent → List (Nat × EventKind)
  | .eventFd => []
  | .fd n true true => [(n, .read), (n, .write)]
  | .fd n true false => [(n, .read)]
  | .fd n false true => [(n, .write)]
  | .fd n false false => [(n, .other)]

/-- The number `eventfd` does not count beyond. -/
def eventfdMax : Nat := 0xfffffffffffffffe

/-- Where the thread is. The lists are of the objects whose wakeups are still to
be handled. -/
inductive LoopPc
  | wait
  | timers
  | inTimeout
  | events
  /-- `event_fd` has been read. -/
  | copy
  | wakeups (envs : List Nat)
  | inWakeup (envs : List Nat)
  /-- The first of the handlers of a descriptor, and whether the second follows. -/
  | inRead (fd : Nat) (epollout : Bool)
  | write (fd : Nat)
  | inWrite (fd : Nat)
deriving DecidableEq, Repr

/-- What there is of calls of `wakeup` for an object since the last time its
handler was called: none, one that has put it into the set, or one that has
returned. -/
inductive WakeupCall
  | none | inserted | returned
deriving DecidableEq, Repr

structure RunLoop where
  pc : LoopPc
  thread : Cthread
  /-- The objects the descriptors are registered for, and the objects there are. -/
  fds : Nat → Option Nat
  alive : Nat → Bool
  wakeups : Oset (id : Nat → Nat)
  /-- The counter of `event_fd`. -/
  counter : Nat
  /-- The calls of `wakeup` that still have to write to `event_fd`. -/
  writing : List (Option Nat)
  /-- The events of this round that are still to be looked at. -/
  events : List EpollEvent
  call : Nat → WakeupCall
  /-- What was reported in this round and is not yet handed to its object. -/
  due : List (Nat × EventKind)

namespace RunLoop

/-! ## The steps -/

/-- `env(fd)`; `none` stands for `eThreadNotFound`. -/
def envOf (s : RunLoop) (fd : Nat) : Option Nat := (s.fds fd).filter s.alive

/-- The round is over. -/
def endRound (s : RunLoop) : RunLoop := { s with pc := .wait, events := [] }

def epoll (s : RunLoop) (events : List EpollEvent) : RunLoop :=
  { s with
    pc := .timers
    events := events
    due := (events.flatMap EpollEvent.reports).filter fun d => (s.envOf d.1).isSome }

/-- One round of the loop over the expired timers. -/
def timer (s : RunLoop) (now : Nat) : RunLoop :=
  match s.thread.nextExpired now with
  | none => { s with pc := .events }
  | some (t, thread) =>
    if s.alive t.timerEnv then { s with thread := thread, pc := .inTimeout }
    else { s with thread := thread }.endRound

/-- The handler for the event is called. -/
def handOver (s : RunLoop) (fd : Nat) (kind : EventKind) (pc : LoopPc) : RunLoop :=
  match s.envOf fd with
  | none => { s with pc := .events }
  | some _ => { s with pc := pc, due := s.due.filter (· ≠ (fd, kind)) }

/-- The next event of the round. -/
def dispatch (s : RunLoop) : RunLoop :=
  match s.events with
  | [] => s.endRound
  | .eventFd :: events => { s with pc := .copy, counter := 0, events := events }
  | .fd n true epollout :: events => { s with events := events }.handOver n .read (.inRead n epollout)
  | .fd n false true :: events => { s with events := events, pc := .write n }
  | .fd _ false false :: events => { s with events := events, pc := .events }

/-- The next object in `handle_wakeup`. -/
def handleWakeup (s : RunLoop) : List Nat → RunLoop
  | [] => { s with pc := .events }
  | env :: envs =>
    if s.alive env then { s with pc := .inWakeup envs, call := Function.update s.call env .none }
    else { s with pc := .wakeups envs }

/-- A step of the thread on its own. -/
def next (s : RunLoop) : Option RunLoop :=
  match s.pc with
  | .events => some s.dispatch
  | .copy => some { s with pc := .wakeups s.wakeups.elems, wakeups := .empty }
  | .wakeups envs => some (s.handleWakeup envs)
  | .write n => some (s.handOver n .write (.inWrite n))
  | _ => none

/-- The handler ends. -/
def ret (s : RunLoop) (r : HandlerResult) : Option RunLoop :=
  match s.pc, r with
  | .inTimeout, .returns => some { s with pc := .timers }
  | .inTimeout, _ => some s.endRound
  | .inWakeup _, .throws => some s.endRound
  | .inWakeup envs, _ => some { s with pc := .wakeups envs }
  | .inRead n true, .returns => some { s with pc := .write n }
  | .inRead _ _, .throws => some s.endRound
  | .inRead _ _, _ => some { s with pc := .events }
  | .inWrite _, .throws => some s.endRound
  | .inWrite _, _ => some { s with pc := .events }
  | _, _ => none

/-- `wakeup(env)` up to the write. -/
def wakeup (s : RunLoop) : Option Nat → RunLoop
  | none => { s with writing := s.writing ++ [none] }
  | some env => { s with
      writing := s.writing ++ [some env]
      wakeups := s.wakeups.insert env
      call := if s.call env = .returned then s.call else Function.update s.call env .inserted }

/-- `write(event_fd, ..)` of one of the calls, which returns. -/
def written (s : RunLoop) (i : Nat) : Option RunLoop :=
  s.writing[i]?.map fun env => { s with
    writing := s.writing.eraseIdx i
    counter := if s.counter < eventfdMax then s.counter + 1 else s.counter
    call := match env with
      | none => s.call
      | some env => if s.call env = .inserted then Function.update s.call env .returned else s.call }

def dropWakeup (s : RunLoop) (env : Nat) : RunLoop :=
  { s with wakeups := s.wakeups.eraseP (· == env), call := Function.update s.call env .none }

/-- `add_fd`, `add_read_fd` and `add_write_fd`: a descriptor that is registered
stays with its object. -/
def addFd (s : RunLoop) (env fd : Nat) : RunLoop :=
  { s with fds := if (s.fds fd).isSome then s.fds else Function.update s.fds fd (some env) }

def dropFd (s : RunLoop) (fd : Nat) : RunLoop :=
  { s with fds := Function.update s.fds fd none, due := s.due.filter (·.1 ≠ fd) }

def dropFds (s : RunLoop) (env : Nat) : RunLoop :=
  { s with
    fds := fun fd => if s.fds fd = some env then none else s.fds fd
    due := s.due.filter fun d => s.fds d.1 ≠ some env }

/-- The destructor of `cthread_env`. What is registered for the object stays. -/
def destroy (s : RunLoop) (env : Nat) : RunLoop :=
  { s with
    alive := Function.update s.alive env false
    call := Function.update s.call env .none
    due := s.due.filter fun d => s.fds d.1 ≠ some env }

def create (s : RunLoop) (env : Nat) : RunLoop :=
  { s with alive := Function.update s.alive env true, call := Function.update s.call env .none }

inductive Act
  | epoll (events : List EpollEvent)
  | timer (now : Nat)
  | next
  | ret (r : HandlerResult)
  | wakeup (env : Option Nat)
  | written (i : Nat)
  | dropWakeup (env : Nat)
  | addFd (env fd : Nat)
  | dropFd (fd : Nat)
  | dropFds (env : Nat)
  | addTimer (env id tspec : Nat)
  | dropTimer (env id : Nat)
  | dropTimers (env : Nat)
  | create (env : Nat)
  | destroy (env : Nat)
deriving DecidableEq, Repr

def step (s : RunLoop) : Act → Option RunLoop
  | .epoll events => if s.pc = .wait ∧ events.length ≤ 64 then some (s.epoll events) else none
  | .timer now => if s.pc = .timers then some (s.timer now) else none
  | .next => s.next
  | .ret r => s.ret r
  | .wakeup env => some (s.wakeup env)
  | .written i => s.written i
  | .dropWakeup env => some (s.dropWakeup env)
  | .addFd env fd => some (s.addFd env fd)
  | .dropFd fd => some (s.dropFd fd)
  | .dropFds env => some (s.dropFds env)
  | .addTimer env id tspec => some { s with thread := s.thread.addTimer env id tspec }
  | .dropTimer env id => some { s with thread := s.thread.dropTimer env id }
  | .dropTimers env => some { s with thread := s.thread.dropTimers env }
  | .create env => if s.alive env then none else some (s.create env)
  | .destroy env => if s.alive env then some (s.destroy env) else none

/-- The thread is started; there are some objects. -/
def new (alive : Nat → Bool) : RunLoop where
  pc := .wait
  thread := .new
  fds _ := none
  alive := alive
  wakeups := .empty
  counter := 0
  writing := []
  events := []
  call _ := .none
  due := []

/-! ## What a round should leave -/

/-- Whoever has been woken is in the set, with the counter to say so once the
call has returned, and every event has been handed to its object. -/
structure Complete (s : RunLoop) : Prop where
  wakeups : ∀ env, s.alive env = true → s.call env ≠ .none → env ∈ s.wakeups
  counter : ∀ env, s.alive env = true → s.call env = .returned → s.counter ≠ 0
  events : s.due = []

/-- Nothing is left to do when a round is ended by an exception, nor for the
descriptor when its handlers are; and an event says whether it is to be read
or written. -/
def Ok (s : RunLoop) : Act → Prop
  | .epoll events => ∀ e ∈ events, ∀ d ∈ e.reports, d.2 = .other → s.envOf d.1 = none
  | .timer now =>
    match s.thread.nextExpired now with
    | none => True
    | some (t, _) => s.alive t.timerEnv = true ∨ s.due = []
  | .ret r =>
    match s.pc with
    | .inTimeout => r = .returns ∨ s.due = []
    | .inWakeup envs => r = .throws → s.due = [] ∧ ∀ env ∈ envs, s.alive env = true → s.call env = .none
    | .inRead n _ => (r = .throws → s.due = []) ∧ (r = .notFound → (n, .write) ∉ s.due)
    | .inWrite _ => r = .throws → s.due = []
    | _ => True
  | _ => True

instance (s : RunLoop) (a : Act) : Decidable (s.Ok a) :=
  match a with
  | .epoll events =>
    inferInstanceAs (Decidable (∀ e ∈ events, ∀ d ∈ e.reports, d.2 = .other → s.envOf d.1 = none))
  | .timer now =>
    match h : s.thread.nextExpired now with
    | none => isTrue (by simp [Ok, h])
    | some (t, _) => decidable_of_iff (s.alive t.timerEnv = true ∨ s.due = []) (by simp [Ok, h])
  | .ret r =>
    match h : s.pc with
    | .inTimeout => decidable_of_iff (r = .returns ∨ s.due = []) (by simp [Ok, h])
    | .inWakeup envs =>
      decidable_of_iff (r = .throws → s.due = [] ∧ ∀ env ∈ envs, s.alive env = true → s.call env = .none)
        (by simp [Ok, h])
    | .inRead n _ =>
      decidable_of_iff ((r = .throws → s.due = []) ∧ (r = .notFound → (n, .write) ∉ s.due)) (by simp [Ok, h])
    | .inWrite _ => decidable_of_iff (r = .throws → s.due = []) (by simp [Ok, h])
    | .wait | .timers | .events | .copy | .wakeups _ | .write _ => isTrue (by simp [Ok, h])
  | .next | .wakeup _ | .written _ | .dropWakeup _ | .addFd _ _ | .dropFd _ | .dropFds _ | .addTimer _ _ _
  | .dropTimer _ _ | .dropTimers _ | .create _ | .destroy _ => isTrue trivial

/-! ## What is kept -/

/-- The objects whose wakeups have been taken out of the set. -/
def taken (s : RunLoop) : List Nat :=
  match s.pc with
  | .wakeups envs | .inWakeup envs => envs
  | _ => []

/-- What the round will still hand over, unless an exception ends it. -/
def pending (s : RunLoop) : List (Nat × EventKind) :=
  (match s.pc with
  | .inRead n true | .write n => [(n, .write)]
  | _ => []) ++ (s.events.flatMap EpollEvent.reports).filter (·.2 ≠ .other)

structure Inv (s : RunLoop) : Prop where
  wakeups : ∀ env, s.alive env = true → s.call env ≠ .none → env ∈ s.wakeups ∨ env ∈ s.taken
  counter : ∀ env, s.alive env = true → s.call env = .returned →
    env ∈ s.taken ∨ s.counter ≠ 0 ∨ s.pc = .copy
  due : ∀ d ∈ s.due, d ∈ s.pending
  registered : ∀ d ∈ s.due, (s.envOf d.1).isSome = true
  idle : s.pc = .wait → s.events = []

theorem Inv.new (alive : Nat → Bool) : Inv (new alive) where
  wakeups _ _ h := absurd rfl h
  counter _ _ h := by cases h
  due _ h := by cases h
  registered _ h := by cases h
  idle _ := rfl

theorem Inv.complete {s : RunLoop} (h : Inv s) (hpc : s.pc = .wait) : Complete s := by
  have htaken : s.taken = [] := by simp [taken, hpc]
  have hpending : s.pending = [] := by simp [pending, hpc, h.idle hpc]
  refine ⟨fun env halive hcall => ?_, fun env halive hcall => ?_, ?_⟩
  · simpa [htaken] using h.wakeups env halive hcall
  · simpa [htaken, hpc] using h.counter env halive hcall
  · refine List.eq_nil_iff_forall_not_mem.mpr fun d hd => ?_
    simpa [hpending] using h.due d hd

/-- The thread goes on, and neither leaves out an object nor an event. -/
theorem Inv.goOn {s : RunLoop} (h : Inv s) {pc : LoopPc} (thread : Cthread) {events : List EpollEvent}
    (due : List (Nat × EventKind)) (hpc : s.pc ≠ .copy)
    (henvs : ∀ env ∈ s.taken, s.alive env = true → s.call env ≠ .none →
      env ∈ ({ s with pc := pc, thread := thread, events := events, due := due } : RunLoop).taken)
    (hdue : ∀ d ∈ due, d ∈ s.due ∧
      d ∈ ({ s with pc := pc, thread := thread, events := events, due := due } : RunLoop).pending)
    (hidle : pc = .wait → events = []) :
    Inv { s with pc := pc, thread := thread, events := events, due := due } where
  wakeups env halive hcall := (h.wakeups env halive hcall).imp id fun htaken => henvs env htaken halive hcall
  counter env halive hcall := by
    have hcounter := h.counter env halive hcall
    cases hcounter with
    | inl htaken => exact .inl (henvs env htaken halive (by rw [hcall]; simp))
    | inr hcounter => exact .inr (.inl (hcounter.resolve_right hpc))
  due d hd := (hdue d hd).2
  registered d hd := h.registered d (hdue d hd).1
  idle := hidle

/-- A round may end where nothing is left to do. -/
theorem Inv.endRound {s : RunLoop} (h : Inv s) (hpc : s.pc ≠ .copy) (hdue : s.due = [])
    (henvs : ∀ env ∈ s.taken, s.alive env = true → s.call env = .none) : Inv s.endRound := by
  refine h.goOn _ s.due hpc (fun env htaken halive hcall => ?_) (fun d hd => ?_) fun _ => rfl
  · exact absurd (henvs env htaken halive) hcall
  · rw [hdue] at hd
    cases hd

theorem Inv.epoll {s : RunLoop} (h : Inv s) (hpc : s.pc = .wait) {events : List EpollEvent}
    (hok : s.Ok (.epoll events)) : Inv (s.epoll events) where
  wakeups env halive hcall := by
    have hwakeups := h.wakeups env halive hcall
    simp only [taken, hpc] at hwakeups
    exact hwakeups
  counter env halive hcall := by
    have hcounter := h.counter env halive hcall
    simp only [taken, hpc, List.not_mem_nil, false_or] at hcounter
    exact .inr (.inl (hcounter.resolve_right (by simp)))
  due d hd := by
    obtain ⟨hmem, halive⟩ := List.mem_filter.mp hd
    obtain ⟨e, he, hd⟩ := List.mem_flatMap.mp hmem
    have hother : d.2 ≠ .other := fun hother => by
      have hnone : s.envOf d.1 = none := hok e he d hd hother
      rw [hnone] at halive
      cases halive
    simpa [pending, RunLoop.epoll, hother] using ⟨e, he, hd⟩
  registered d hd := (List.mem_filter.mp hd).2
  idle hwait := by cases hwait

theorem Inv.timer {s : RunLoop} (h : Inv s) (hpc : s.pc = .timers) {now : Nat} (hok : s.Ok (.timer now)) :
    Inv (s.timer now) := by
  have hne : s.pc ≠ .copy := by simp [hpc]
  have htaken : s.taken = [] := by simp [taken, hpc]
  have hkeep : ∀ d ∈ s.due, d ∈ (s.events.flatMap EpollEvent.reports).filter (·.2 ≠ .other) := fun d hd => by
    simpa [pending, hpc] using h.due d hd
  unfold RunLoop.timer
  cases hnext : s.thread.nextExpired now with
  | none => exact h.goOn s.thread s.due hne (by simp [htaken]) (fun d hd => ⟨hd, hkeep d hd⟩) (by simp)
  | some p =>
    obtain ⟨t, thread⟩ := p
    simp only [Ok, hnext] at hok
    dsimp only
    split
    next => exact h.goOn _ s.due hne (by simp [htaken]) (fun d hd => ⟨hd, hkeep d hd⟩) (by simp)
    next hdead =>
      have hdue := hok.resolve_left hdead
      exact h.goOn _ s.due hne (by simp [htaken]) (by simp [hdue]) fun _ => rfl

/-- What is due is not for a descriptor without an object. -/
theorem Inv.fst_ne {s : RunLoop} (h : Inv s) {n : Nat} (hn : s.envOf n = none) : ∀ d ∈ s.due, d.1 ≠ n := by
  intro d hd heq
  have hreg := h.registered d hd
  rw [heq, hn] at hreg
  cases hreg

theorem Inv.dispatch {s : RunLoop} (h : Inv s) (hpc : s.pc = .events) : Inv s.dispatch := by
  have hne : s.pc ≠ .copy := by simp [hpc]
  have htaken : s.taken = [] := by simp [taken, hpc]
  have hkeep : ∀ d ∈ s.due, d ∈ s.events.flatMap EpollEvent.reports ∧ d.2 ≠ .other := fun d hd => by
    simpa [pending, hpc] using h.due d hd
  unfold RunLoop.dispatch
  split
  next hevents =>
    simp only [hevents] at hkeep
    exact h.endRound hne (List.eq_nil_iff_forall_not_mem.mpr fun d hd => by simpa using (hkeep d hd).1) (by simp [htaken])
  next events hevents =>
    -- the set is taken out before the round goes on
    simp only [hevents, List.flatMap_cons, EpollEvent.reports, List.nil_append] at hkeep
    exact {
      wakeups := fun env halive hcall => .inl (by simpa [htaken] using h.wakeups env halive hcall)
      counter := fun _ _ _ => .inr (.inr rfl)
      due := fun d hd => by simpa [pending] using hkeep d hd
      registered := h.registered
      idle := fun hwait => by cases hwait }
  next n epollout events hevents =>
    simp only [hevents, List.flatMap_cons, List.mem_append] at hkeep
    unfold handOver
    split
    next hnone =>
      refine h.goOn s.thread s.due hne (by simp [htaken]) (fun d hd => ⟨hd, ?_⟩) (by simp)
      have hfst : d.1 ≠ n := h.fst_ne hnone d hd
      have hrest : d ∈ events.flatMap EpollEvent.reports := (hkeep d hd).1.resolve_left fun hmem => by
        cases epollout <;> simp only [EpollEvent.reports, List.mem_cons, List.not_mem_nil, or_false] at hmem
        · exact hfst (by rw [hmem])
        · rcases hmem with rfl | rfl <;> exact hfst rfl
      simpa [pending, (hkeep d hd).2] using List.mem_flatMap.mp hrest
    next =>
      refine h.goOn s.thread _ hne (by simp [htaken]) (fun d hd => ?_) (by simp)
      obtain ⟨hd, hread⟩ := List.mem_filter.mp hd
      have hread : d ≠ (n, .read) := by simpa using hread
      refine ⟨hd, ?_⟩
      have hmem := (hkeep d hd).1
      cases epollout with
      | false =>
        have hrest : d ∈ events.flatMap EpollEvent.reports := hmem.resolve_left (by simpa [EpollEvent.reports] using hread)
        simpa [pending, (hkeep d hd).2] using List.mem_flatMap.mp hrest
      | true =>
        have hrest : d = (n, .write) ∨ d ∈ events.flatMap EpollEvent.reports := by
          simpa [EpollEvent.reports, hread] using hmem
        simpa [pending, (hkeep d hd).2] using hrest
  next n events hevents =>
    simp only [hevents, List.flatMap_cons, List.mem_append] at hkeep
    refine h.goOn s.thread s.due hne (by simp [htaken]) (fun d hd => ⟨hd, ?_⟩) (by simp)
    have hmem := (hkeep d hd).1
    simpa [pending, EpollEvent.reports, (hkeep d hd).2] using hmem
  next n events hevents =>
    simp only [hevents, List.flatMap_cons, List.mem_append] at hkeep
    refine h.goOn s.thread s.due hne (by simp [htaken]) (fun d hd => ⟨hd, ?_⟩) (by simp)
    have hrest : d ∈ events.flatMap EpollEvent.reports := (hkeep d hd).1.resolve_left fun hmem => by
      have heq : d = (n, .other) := by simpa [EpollEvent.reports] using hmem
      exact (hkeep d hd).2 (by rw [heq])
    simpa [pending, (hkeep d hd).2] using List.mem_flatMap.mp hrest

theorem Inv.copy {s : RunLoop} (h : Inv s) (hpc : s.pc = .copy) :
    Inv { s with pc := .wakeups s.wakeups.elems, wakeups := .empty } where
  wakeups env halive hcall := by
    have hwakeups := h.wakeups env halive hcall
    simp only [taken, hpc, List.not_mem_nil, or_false] at hwakeups
    exact .inr hwakeups
  counter env halive hcall := by
    have hwakeups := h.wakeups env halive (by rw [show s.call env = .returned from hcall]; simp)
    simp only [taken, hpc, List.not_mem_nil, or_false] at hwakeups
    exact .inl hwakeups
  due d hd := by simpa [pending, hpc] using h.due d hd
  registered := h.registered
  idle hwait := by cases hwait

theorem Inv.handleWakeup {s : RunLoop} (h : Inv s) {envs : List Nat} (hpc : s.pc = .wakeups envs) :
    Inv (s.handleWakeup envs) := by
  have hne : s.pc ≠ .copy := by simp [hpc]
  have htaken : s.taken = envs := by simp [taken, hpc]
  have hkeep : ∀ d ∈ s.due, d ∈ (s.events.flatMap EpollEvent.reports).filter (·.2 ≠ .other) := fun d hd => by
    simpa [pending, hpc] using h.due d hd
  unfold RunLoop.handleWakeup
  split
  next => exact h.goOn s.thread s.due hne (by simp [htaken]) (fun d hd => ⟨hd, hkeep d hd⟩) (by simp)
  next env envs =>
    split
    next =>
      -- whose handler is called has no call left
      have hcall : ∀ e c, c ≠ .none → Function.update s.call env .none e = c → e ≠ env ∧ s.call e = c := by
        intro e c hc heq
        by_cases he : e = env
        · rw [he, Function.update_self] at heq
          exact absurd heq.symm hc
        · rw [Function.update_of_ne he] at heq
          exact ⟨he, heq⟩
      exact {
        wakeups := fun e halive hsome => by
          obtain ⟨he, hsame⟩ := hcall e _ hsome rfl
          have hwakeups := h.wakeups e halive (hsame ▸ hsome)
          rw [htaken] at hwakeups
          simpa [taken, he] using hwakeups
        counter := fun e halive hreturned => by
          obtain ⟨he, hsame⟩ := hcall e _ (by simp) hreturned
          have hcounter := h.counter e halive hsame
          rw [htaken] at hcounter
          simpa [taken, he, hpc] using hcounter
        due := hkeep
        registered := h.registered
        idle := fun hwait => by cases hwait }
    next hdead =>
      refine h.goOn s.thread s.due hne (fun e he halive _ => ?_) (fun d hd => ⟨hd, hkeep d hd⟩) (by simp)
      rw [htaken] at he
      have hne : e ≠ env := fun heq => hdead (heq ▸ halive)
      simpa [taken] using List.mem_of_ne_of_mem hne he

theorem Inv.write {s : RunLoop} (h : Inv s) {n : Nat} (hpc : s.pc = .write n) :
    Inv (s.handOver n .write (.inWrite n)) := by
  have hne : s.pc ≠ .copy := by simp [hpc]
  have htaken : s.taken = [] := by simp [taken, hpc]
  have hkeep : ∀ d ∈ s.due, d ≠ (n, .write) → d ∈ (s.events.flatMap EpollEvent.reports).filter (·.2 ≠ .other) := by
    intro d hd hne
    have hmem : d ∈ [(n, EventKind.write)] ++ (s.events.flatMap EpollEvent.reports).filter (·.2 ≠ .other) := by
      simpa only [pending, hpc] using h.due d hd
    exact (List.mem_append.mp hmem).resolve_left (by simpa using hne)
  unfold handOver
  split
  next hnone =>
    refine h.goOn s.thread s.due hne (by simp [htaken]) (fun d hd => ⟨hd, ?_⟩) (by simp)
    exact hkeep d hd fun heq => h.fst_ne hnone d hd (by rw [heq])
  next =>
    refine h.goOn s.thread _ hne (by simp [htaken]) (fun d hd => ?_) (by simp)
    obtain ⟨hd, hwrite⟩ := List.mem_filter.mp hd
    exact ⟨hd, hkeep d hd (by simpa using hwrite)⟩

theorem Inv.next {s s' : RunLoop} (h : Inv s) (hstep : s.next = some s') : Inv s' := by
  unfold RunLoop.next at hstep
  split at hstep
  next hpc =>
    obtain rfl := Option.some.inj hstep
    exact h.dispatch hpc
  next hpc =>
    obtain rfl := Option.some.inj hstep
    exact h.copy hpc
  next envs hpc =>
    obtain rfl := Option.some.inj hstep
    exact h.handleWakeup hpc
  next n hpc =>
    obtain rfl := Option.some.inj hstep
    exact h.write hpc
  next => cases hstep

theorem Inv.ret {s s' : RunLoop} (h : Inv s) {r : HandlerResult} (hok : s.Ok (.ret r)) (hstep : s.ret r = some s') :
    Inv s' := by
  have hkeep : s.taken = [] → (∀ n, s.pc ≠ .inRead n true) → (∀ n, s.pc ≠ .write n) → ∀ d ∈ s.due,
      d ∈ (s.events.flatMap EpollEvent.reports).filter (·.2 ≠ .other) := by
    intro _ hread hwrite d hd
    have hmem := h.due d hd
    unfold pending at hmem
    split at hmem
    next n hpc => exact absurd hpc (hread n)
    next n hpc => exact absurd hpc (hwrite n)
    next => simpa using hmem
  cases hpc : s.pc with
  | inTimeout =>
    simp only [Ok, hpc] at hok
    have htaken : s.taken = [] := by simp [taken, hpc]
    cases r with
    | returns =>
      simp only [RunLoop.ret, hpc, Option.some.injEq] at hstep
      subst hstep
      exact h.goOn s.thread s.due (by simp [hpc]) (by simp [htaken])
        (fun d hd => ⟨hd, hkeep htaken (by simp [hpc]) (by simp [hpc]) d hd⟩) (by simp)
    | notFound | throws =>
      simp only [RunLoop.ret, hpc, Option.some.injEq] at hstep
      subst hstep
      exact h.endRound (by simp [hpc]) (hok.resolve_left (by simp)) (by simp [htaken])
  | inWakeup envs =>
    simp only [Ok, hpc] at hok
    have htaken : s.taken = envs := by simp [taken, hpc]
    cases r with
    | throws =>
      simp only [RunLoop.ret, hpc, Option.some.injEq] at hstep
      subst hstep
      obtain ⟨hdue, henvs⟩ := hok rfl
      exact h.endRound (by simp [hpc]) hdue (by simpa [htaken] using henvs)
    | returns | notFound =>
      simp only [RunLoop.ret, hpc, Option.some.injEq] at hstep
      subst hstep
      refine h.goOn s.thread s.due (by simp [hpc]) (fun env hmem _ _ => ?_) (fun d hd => ⟨hd, ?_⟩)
        (by simp)
      · rwa [htaken] at hmem
      · simpa [pending, hpc] using h.due d hd
  | inRead n epollout =>
    simp only [Ok, hpc] at hok
    have htaken : s.taken = [] := by simp [taken, hpc]
    have hrest : ∀ d ∈ s.due, (epollout = true → d ≠ (n, .write)) →
        d ∈ (s.events.flatMap EpollEvent.reports).filter (·.2 ≠ .other) := by
      intro d hd hne
      have hmem := h.due d hd
      cases epollout with
      | false => simpa [pending, hpc] using hmem
      | true =>
        simp only [pending, hpc] at hmem
        exact (List.mem_append.mp hmem).resolve_left (by simpa using hne rfl)
    cases r with
    | throws =>
      have hs : s' = s.endRound := by
        cases epollout <;> simpa [RunLoop.ret, hpc, eq_comm] using hstep
      subst hs
      exact h.endRound (by simp [hpc]) (hok.1 rfl) (by simp [htaken])
    | notFound =>
      have hs : s' = { s with pc := .events } := by
        cases epollout <;> simpa [RunLoop.ret, hpc, eq_comm] using hstep
      subst hs
      refine h.goOn s.thread s.due (by simp [hpc]) (by simp [htaken]) (fun d hd => ⟨hd, ?_⟩) (by simp)
      exact hrest d hd fun _ heq => hok.2 rfl (heq ▸ hd)
    | returns =>
      cases epollout with
      | false =>
        simp only [RunLoop.ret, hpc, Option.some.injEq] at hstep
        subst hstep
        refine h.goOn s.thread s.due (by simp [hpc]) (by simp [htaken]) (fun d hd => ⟨hd, ?_⟩)
          (by simp)
        exact hrest d hd (by simp)
      | true =>
        simp only [RunLoop.ret, hpc, Option.some.injEq] at hstep
        subst hstep
        refine h.goOn s.thread s.due (by simp [hpc]) (by simp [htaken]) (fun d hd => ⟨hd, ?_⟩)
          (by simp)
        simpa only [pending, hpc] using h.due d hd
  | inWrite n =>
    simp only [Ok, hpc] at hok
    have htaken : s.taken = [] := by simp [taken, hpc]
    cases r with
    | throws =>
      simp only [RunLoop.ret, hpc, Option.some.injEq] at hstep
      subst hstep
      exact h.endRound (by simp [hpc]) (hok rfl) (by simp [htaken])
    | returns | notFound =>
      simp only [RunLoop.ret, hpc, Option.some.injEq] at hstep
      subst hstep
      exact h.goOn s.thread s.due (by simp [hpc]) (by simp [htaken])
        (fun d hd => ⟨hd, hkeep htaken (by simp [hpc]) (by simp [hpc]) d hd⟩) (by simp)
  | wait | timers | events | copy | wakeups _ | write _ =>
    cases r <;> simp [RunLoop.ret, hpc] at hstep

/-! ## What others do -/

theorem Inv.wakeup {s : RunLoop} (h : Inv s) (env : Option Nat) : Inv (s.wakeup env) := by
  cases env with
  | none => exact ⟨h.wakeups, h.counter, h.due, h.registered, h.idle⟩
  | some env =>
    have hinsert : ∀ e, e = env ∨ e ∈ s.wakeups → e ∈ s.wakeups.insert env := by
      intro e he
      by_cases hmem : env ∈ s.wakeups
      · rw [Oset.insert_of_mem hmem rfl]
        exact he.elim (fun heq => heq ▸ hmem) id
      · have hnew : ∀ c ∈ s.wakeups, id c ≠ id env := by
          intro c hc heq
          rw [id_eq, id_eq] at heq
          exact hmem (heq ▸ hc)
        exact (Oset.mem_insert hnew).mpr he
    refine ⟨fun e halive hcall => ?_, fun e halive hcall => ?_, h.due, h.registered, h.idle⟩
    · by_cases he : e = env
      · exact .inl (hinsert e (.inl he))
      · have hsame : s.call e ≠ .none := by
          simp only [RunLoop.wakeup] at hcall
          split at hcall
          · exact hcall
          · rwa [Function.update_of_ne he] at hcall
        exact (h.wakeups e halive hsame).imp (fun hmem => hinsert e (.inr hmem)) id
    · -- a call that has returned is none of those just begun
      have hsame : s.call e = .returned := by
        simp only [RunLoop.wakeup] at hcall
        split at hcall
        · exact hcall
        · by_cases he : e = env
          · rw [he, Function.update_self] at hcall
            cases hcall
          · rwa [Function.update_of_ne he] at hcall
      exact h.counter e halive hsame

/-- The calls as a write leaves them: more of them have returned. -/
theorem call_written {s s' : RunLoop} {i : Nat} (hstep : s.written i = some s') :
    (∀ env, s'.call env ≠ .none → s.call env ≠ .none) ∧ s'.counter ≠ 0 ∧
      s'.pc = s.pc ∧ s'.alive = s.alive ∧ s'.wakeups = s.wakeups ∧ s'.due = s.due ∧ s'.fds = s.fds ∧
      s'.events = s.events := by
  obtain ⟨o, -, rfl⟩ := Option.map_eq_some_iff.mp hstep
  refine ⟨fun env hcall => ?_, ?_, rfl, rfl, rfl, rfl, rfl, rfl⟩
  · cases o with
    | none => exact hcall
    | some e =>
      dsimp only at hcall
      split at hcall
      next hinserted =>
        by_cases he : env = e
        · rw [he, hinserted]
          simp
        · rwa [Function.update_of_ne he] at hcall
      next => exact hcall
  · dsimp only
    split
    next => omega
    next hmax =>
      unfold eventfdMax at hmax
      omega

theorem Inv.written {s s' : RunLoop} (h : Inv s) {i : Nat} (hstep : s.written i = some s') : Inv s' := by
  obtain ⟨hcalls, hcounter, hpc, halive, hwakeups, hdue, hfds, hevents⟩ := call_written hstep
  have htaken : s'.taken = s.taken := by simp only [taken, hpc]
  have hpending : s'.pending = s.pending := by simp only [pending, hpc, hevents]
  refine ⟨fun env hlive hcall => ?_, fun env _ _ => .inr (.inl hcounter), ?_, ?_, ?_⟩
  · rw [halive] at hlive
    rw [hwakeups, htaken]
    exact h.wakeups env hlive (hcalls env hcall)
  · rw [hdue, hpending]
    exact h.due
  · unfold envOf
    rw [hdue, hfds, halive]
    exact h.registered
  · rw [hpc, hevents]
    exact h.idle

theorem update_call_ne {call : Nat → WakeupCall} {env e : Nat} (h : Function.update call env .none e ≠ .none) :
    e ≠ env ∧ call e ≠ .none := by
  by_cases he : e = env
  · rw [he, Function.update_self] at h
    exact absurd rfl h
  · rw [Function.update_of_ne he] at h
    exact ⟨he, h⟩

theorem Inv.dropWakeup {s : RunLoop} (h : Inv s) (env : Nat) : Inv (s.dropWakeup env) where
  wakeups e halive hcall := by
    obtain ⟨he, hcall⟩ := update_call_ne hcall
    refine (h.wakeups e halive hcall).imp (fun hmem => ?_) id
    refine (Oset.mem_eraseP fun a _ b _ ha hb => ?_).mpr ⟨hmem, by simpa using he⟩
    rw [beq_iff_eq] at ha hb
    rw [ha, hb]
  counter e halive hcall := by
    obtain ⟨he, -⟩ := update_call_ne (by rw [show Function.update s.call env .none e = .returned from hcall]; simp)
    have hsame : Function.update s.call env .none e = .returned := hcall
    rw [Function.update_of_ne he] at hsame
    exact h.counter e halive hsame
  due := h.due
  registered := h.registered
  idle := h.idle

/-- Descriptors and objects come and go, and with them what is due. -/
theorem Inv.reregister {s : RunLoop} (h : Inv s) (fds : Nat → Option Nat) (alive : Nat → Bool)
    (call : Nat → WakeupCall) (due : List (Nat × EventKind))
    (hcall : ∀ e, alive e = true → call e ≠ .none → s.alive e = true ∧ call e = s.call e)
    (hdue : ∀ d ∈ due, d ∈ s.due ∧ ((fds d.1).filter alive).isSome = true) :
    Inv { s with fds := fds, alive := alive, call := call, due := due } where
  wakeups e halive hsome := by
    obtain ⟨halive', heq⟩ := hcall e halive hsome
    exact h.wakeups e halive' (heq ▸ hsome)
  counter e halive hreturned := by
    have hreturned : call e = .returned := hreturned
    obtain ⟨halive', heq⟩ := hcall e halive (by simp [hreturned])
    exact h.counter e halive' (heq ▸ hreturned)
  due d hd := h.due d (hdue d hd).1
  registered d hd := (hdue d hd).2
  idle := h.idle

theorem Inv.addFd {s : RunLoop} (h : Inv s) (env fd : Nat) : Inv (s.addFd env fd) := by
  refine h.reregister _ _ s.call s.due (fun e halive _ => ⟨halive, rfl⟩) fun d hd => ⟨hd, ?_⟩
  have hreg := h.registered d hd
  split
  next => exact hreg
  next hnone =>
    have hne : d.1 ≠ fd := fun heq => by
      rw [envOf, heq, Option.not_isSome_iff_eq_none.mp hnone] at hreg
      cases hreg
    rwa [Function.update_of_ne hne]

theorem Inv.dropFd {s : RunLoop} (h : Inv s) (fd : Nat) : Inv (s.dropFd fd) := by
  refine h.reregister _ s.alive s.call _ (fun e halive _ => ⟨halive, rfl⟩) fun d hd => ?_
  obtain ⟨hd, hne⟩ := List.mem_filter.mp hd
  refine ⟨hd, ?_⟩
  rw [Function.update_of_ne (of_decide_eq_true hne)]
  exact h.registered d hd

theorem Inv.dropFds {s : RunLoop} (h : Inv s) (env : Nat) : Inv (s.dropFds env) := by
  refine h.reregister _ s.alive s.call _ (fun e halive _ => ⟨halive, rfl⟩) fun d hd => ?_
  obtain ⟨hd, hne⟩ := List.mem_filter.mp hd
  refine ⟨hd, ?_⟩
  rw [if_neg (of_decide_eq_true hne)]
  exact h.registered d hd

theorem Inv.destroy {s : RunLoop} (h : Inv s) (env : Nat) : Inv (s.destroy env) := by
  refine h.reregister s.fds _ _ _ (fun e halive hcall => ?_) fun d hd => ?_
  · obtain ⟨he, -⟩ := update_call_ne hcall
    rw [Function.update_of_ne he] at halive
    exact ⟨halive, Function.update_of_ne he _ _⟩
  · obtain ⟨hd, hne⟩ := List.mem_filter.mp hd
    refine ⟨hd, ?_⟩
    obtain ⟨e, he⟩ := Option.isSome_iff_exists.mp (h.registered d hd)
    obtain ⟨hfd, halive⟩ := Option.filter_eq_some_iff.mp he
    have hother : e ≠ env := fun heq => of_decide_eq_true hne (heq ▸ hfd)
    rw [hfd]
    simpa [Option.filter, Function.update_of_ne hother] using halive

theorem Inv.create {s : RunLoop} (h : Inv s) (env : Nat) : Inv (s.create env) := by
  refine h.reregister s.fds _ _ s.due (fun e halive hcall => ?_) fun d hd => ⟨hd, ?_⟩
  · obtain ⟨he, -⟩ := update_call_ne hcall
    rw [Function.update_of_ne he] at halive
    exact ⟨halive, Function.update_of_ne he _ _⟩
  · obtain ⟨e, he⟩ := Option.isSome_iff_exists.mp (h.registered d hd)
    obtain ⟨hfd, halive⟩ := Option.filter_eq_some_iff.mp he
    rw [hfd]
    by_cases he : e = env
    · simp [Option.filter, he]
    · simpa [Option.filter, Function.update_of_ne he] using halive

theorem Inv.withThread {s : RunLoop} (h : Inv s) (thread : Cthread) : Inv { s with thread := thread } :=
  ⟨h.wakeups, h.counter, h.due, h.registered, h.idle⟩

/-! ## Runs -/

theorem Inv.step {s s' : RunLoop} {a : Act} (h : Inv s) (hok : s.Ok a) (hstep : s.step a = some s') : Inv s' := by
  cases a with
  | epoll events =>
    simp only [RunLoop.step] at hstep
    split_ifs at hstep with hpc
    obtain rfl := Option.some.inj hstep
    exact h.epoll hpc.1 hok
  | timer now =>
    simp only [RunLoop.step] at hstep
    split_ifs at hstep with hpc
    obtain rfl := Option.some.inj hstep
    exact h.timer hpc hok
  | next => exact h.next hstep
  | ret r => exact h.ret hok hstep
  | wakeup env =>
    obtain rfl := Option.some.inj hstep
    exact h.wakeup env
  | written i => exact h.written hstep
  | dropWakeup env =>
    obtain rfl := Option.some.inj hstep
    exact h.dropWakeup env
  | addFd env fd =>
    obtain rfl := Option.some.inj hstep
    exact h.addFd env fd
  | dropFd fd =>
    obtain rfl := Option.some.inj hstep
    exact h.dropFd fd
  | dropFds env =>
    obtain rfl := Option.some.inj hstep
    exact h.dropFds env
  | addTimer | dropTimer | dropTimers =>
    obtain rfl := Option.some.inj hstep
    exact h.withThread _
  | create env =>
    simp only [RunLoop.step] at hstep
    split_ifs at hstep
    obtain rfl := Option.some.inj hstep
    exact h.create env
  | destroy env =>
    simp only [RunLoop.step] at hstep
    split_ifs at hstep
    obtain rfl := Option.some.inj hstep
    exact h.destroy env

/-- **At the end of each round nobody has lost a wakeup and every event has been
handed over, as long as an exception that ends a round, or the handlers of a
descriptor, finds nothing left to do.** -/
theorem complete_of_meets {alive : Nat → Bool} {as : List Act} (h : Runs.Meets step Ok (new alive) as) :
    Runs.Along step (fun _ _ s => s.pc = .wait → Complete s) (new alive) as :=
  Runs.along_of_meets (fun _ _ _ hs hok hstep => Inv.step hs hok hstep)
    (fun _ _ _ hs hok hstep hpc => (Inv.step hs hok hstep).complete hpc) (.new alive) h

/-- A round with a descriptor and a wakeup, whose handler throws at the end. -/
def oneRound : List Act :=
  [.addFd 3 5, .wakeup (some 1), .written 0, .epoll [.fd 5 true true, .eventFd], .timer 0, .next, .ret .returns,
    .next, .ret .notFound, .wakeup (some 2), .next, .next, .next, .ret .returns, .next, .ret .throws]

theorem complete_of_meets_oneRound :
    Runs.Along step (fun _ _ s => s.pc = .wait → Complete s) (new fun _ => true) oneRound ∧
      ∃ s, Runs.run step (new fun _ => true) oneRound = some s ∧ s.pc = .wait :=
  ⟨complete_of_meets (by decide +kernel), _, rfl, by decide +kernel⟩

/-- Of two objects woken the first throws, and the second is not called; of two
descriptors the handler of the first throws, and the event of the second is
lost. -/
theorem handler_costs_others : (∃ s, Runs.run step (new fun _ => true) [.wakeup (some 1), .written 0,
      .wakeup (some 2), .written 0, .epoll [.eventFd], .timer 0, .next, .next, .next, .ret .throws] = some s ∧
      s.pc = .wait ∧ s.call 2 = .returned ∧ s.wakeups.elems = [] ∧ s.counter = 0 ∧ ¬ Complete s) ∧
    ∃ s, Runs.run step (new fun _ => true) [.addFd 1 4, .addFd 2 5, .epoll [.fd 4 true false, .fd 5 true false],
      .timer 0, .next, .ret .throws] = some s ∧ s.pc = .wait ∧ s.due = [(5, .read)] ∧ ¬ Complete s := by
  refine ⟨⟨_, rfl, by decide +kernel, by decide +kernel, by decide +kernel, by decide +kernel, fun h => ?_⟩,
    _, rfl, by decide +kernel, by decide +kernel, fun h => ?_⟩
  · have hcounter := h.counter 2 rfl (by decide +kernel)
    exact absurd hcounter (by decide +kernel)
  · exact absurd h.events (by decide +kernel)

end RunLoop

end RoflCommon
