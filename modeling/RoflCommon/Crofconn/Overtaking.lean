/-
The RX thread overtakes the thread that opens the connection.

A HELLO that `handle_recv` gets in one of the two pending states moves the
machine on at once, and the opening thread then puts it back into
`STATE_NEGOTIATING`. The three properties hold in the runs in which the RX
thread does not move the machine before the opening thread has
(`opening_ordered`).
-/
import RoflCommon.Crofconn.Opening

namespace RoflCommon
namespace Opening

open Crofconn

/-- After `STATE_NEGOTIATING2` or `STATE_ESTABLISHED` the machine enters
`STATE_NEGOTIATING` only by way of `STATE_DISCONNECTED`. -/
def NeverRegresses (entered : List ConnState) : Prop :=
  ∀ before between after s, entered = before ++ s :: between ++ .negotiating :: after →
    s = .negotiating2 ∨ s = .established → .disconnected ∈ between

/-- The RX thread moves the machine, other than to `STATE_DISCONNECTED`, only
after the opening thread has returned from its handler. -/
def OnTime (t : St) (a : Action) : Prop :=
  a = .step .rx → ∀ s ∈ enters (t.pc .rx), s ≠ .disconnected → t.notified = true ∧ t.pc .opener = .idle

instance (t : St) (a : Action) : Decidable (OnTime t a) := inferInstanceAs (Decidable (_ → _))

/-! ## No regress -/

/-- The thread will yet enter the state it asks for. -/
def Ahead : Pc → Prop
  | .enter _ | .lock _ => True
  | .inside ops => ∃ s, .setState s ∈ ops
  | _ => False

/-- The opening thread has not moved the machine yet. -/
def Before (t : St) : Prop := t.notified = false ∨ Ahead (t.pc .opener)

theorem enters_eq (pc : Pc) : enters pc = [] ∨ ∃ s ops, pc = .inside (.setState s :: ops) ∧ enters pc = [s] := by
  cases pc with
  | inside ops =>
    cases ops with
    | nil => exact .inl rfl
    | cons op ops =>
      cases op with
      | setState s => exact .inr ⟨s, ops, rfl, rfl⟩
      | _ => exact .inl rfl
  | _ => exact .inl rfl

theorem NeverRegresses.of_not_mem {l : List ConnState} (h₂ : .negotiating2 ∉ l) (h₃ : .established ∉ l) :
    NeverRegresses l := by
  rintro before between after s rfl (rfl | rfl)
  · simp at h₂
  · simp at h₃

theorem NeverRegresses.append {l : List ConnState} (h : NeverRegresses l) {s : ConnState} (hs : s ≠ .negotiating) :
    NeverRegresses (l ++ [s]) := by
  intro before between after u heq hu
  rcases List.eq_nil_or_concat after with rfl | ⟨after, v, rfl⟩
  · obtain ⟨-, hlast⟩ := List.append_inj' heq rfl
    exact absurd (List.singleton_inj.mp hlast) hs
  · have hsplit : l ++ [s] = (before ++ u :: between ++ .negotiating :: after) ++ [v] := by
      simpa only [List.concat_eq_append, List.append_assoc, List.cons_append] using heq
    obtain ⟨hl, -⟩ := List.append_inj' hsplit rfl
    exact h before between after u hl hu

/-- The invariant of the runs in which the opening thread is on time. -/
structure Ordered (t : St) : Prop where
  roles : Roles t
  before : Before t → .negotiating2 ∉ t.entered ∧ .established ∉ t.entered
  never : NeverRegresses t.entered

/-- A state entered is the one asked for, or one on the way down. -/
theorem role_setState {th : Thread} {s : ConnState} {ops : List FsmOp} (h : Role th (.inside (.setState s :: ops))) :
    Target th s ∨ s = .closing ∨ s = .disconnected := by
  obtain ⟨u, hu, hops⟩ := h
  rcases List.mem_cons.mp (hops.subset (by simp : FsmOp.setState s ∈ .setState s :: ops)) with heq | hmem
  · obtain rfl : s = u := by simpa using heq
    exact .inl hu
  · exact .inr (setState_mem_caseOps hmem).2

/-- A step that enters nothing and starts nothing the opening thread had
already done. -/
theorem Ordered.of_same {t t' : St} (h : Ordered t) (hroles : Roles t') (hentered : t'.entered = t.entered)
    (hbefore : Before t' → Before t) : Ordered t' := by
  refine ⟨hroles, fun hb => ?_, ?_⟩
  · rw [hentered]
    exact h.before (hbefore hb)
  · rw [hentered]
    exact h.never

/-- Where it has not moved the machine after a step, it had not before. -/
theorem ahead_of_next {c : Crofconn} {pc : Pc} (hrole : Role .opener pc) (h : Ahead (next c pc).1) : Ahead pc := by
  cases pc with
  | enter s | lock s => trivial
  | inside ops =>
    cases ops with
    | nil => exact h.elim
    | cons op ops =>
      have htail : Ahead (.inside ops) → Ahead (.inside (op :: ops)) := by
        rintro ⟨s, hs⟩
        exact ⟨s, List.mem_cons_of_mem _ hs⟩
      cases op with
      | callback s => exact h.elim
      | _ => exact htail h
  | calls ops => cases ops <;> exact h.elim
  | idle => exact h
  | _ => cases hrole

theorem before_of_go {t : St} (h : Roles t) {th : Thread} {tlock : Option Thread} (hb : Before (t.go th tlock)) :
    Before t := by
  rcases hb with hn | ha
  · exact .inl hn
  · right
    rw [St.go_pc] at ha
    by_cases hth : Thread.opener = th
    · subst hth
      rw [Function.update_self] at ha
      exact ahead_of_next (h .opener) ha
    · rwa [Function.update_of_ne hth] at ha

theorem before_of_update {t : St} {th : Thread} {p : Pc} (hth : th ≠ .opener)
    (hb : Before { t with pc := Function.update t.pc th p }) : Before t := by
  refine hb.imp_right fun ha => ?_
  dsimp only at ha
  rwa [Function.update_of_ne hth.symm] at ha

theorem MayAsk.ne_opener {th : Thread} {s : ConnState} (h : MayAsk th s) : th ≠ .opener := by
  rintro rfl
  exact h

theorem not_before_of_idle {t : St} (hn : t.notified = true) (hidle : t.pc .opener = .idle) : ¬ Before t := by
  rintro (hf | ha)
  · rw [hn] at hf
    cases hf
  · rw [hidle] at ha
    exact ha

theorem Ordered.go {t : St} (h : Ordered t) {th : Thread} {tlock : Option Thread} (hok : OnTime t (.step th)) :
    Ordered (t.go th tlock) := by
  have hroles : Roles (t.go th tlock) := roles_update h.roles (role_next (h.roles th) t.conn)
  rcases enters_eq (t.pc th) with hnone | ⟨s, ops, hpc, hs⟩
  · exact h.of_same hroles (by simp [St.go, hnone]) (before_of_go h.roles)
  have hentered : (t.go th tlock).entered = t.entered ++ [s] := by simp [St.go, hs]
  have hrole := h.roles th
  rw [hpc] at hrole
  have htarget := role_setState hrole
  -- the opening thread alone enters `STATE_NEGOTIATING`, the RX thread alone what comes after
  have hopener : s = .negotiating → Before t := by
    rintro rfl
    cases th with
    | opener => exact .inr (by rw [hpc]; exact ⟨.negotiating, by simp⟩)
    | rx => simp [Target] at htarget
    | other n => exact absurd htarget (by simp [Target, Conn.Terminal])
  have hrx : s = .negotiating2 ∨ s = .established → ¬ Before t := by
    rintro hup
    cases th with
    | opener => rcases hup with rfl | rfl <;> simp [Target] at htarget
    | rx =>
      obtain ⟨hn, hidle⟩ := hok rfl s (by simp [hs]) (by rcases hup with rfl | rfl <;> simp)
      exact not_before_of_idle hn hidle
    | other n => rcases hup with rfl | rfl <;> exact absurd htarget (by simp [Target, Conn.Terminal])
  refine ⟨hroles, fun hb => ?_, ?_⟩
  · have hb := before_of_go h.roles hb
    obtain ⟨h₂, h₃⟩ := h.before hb
    rw [hentered]
    constructor
    · rintro hmem
      rcases List.mem_append.mp hmem with hmem | hmem
      · exact h₂ hmem
      · exact hrx (.inl (List.mem_singleton.mp hmem).symm) hb
    · rintro hmem
      rcases List.mem_append.mp hmem with hmem | hmem
      · exact h₃ hmem
      · exact hrx (.inr (List.mem_singleton.mp hmem).symm) hb
  · rw [hentered]
    by_cases hneg : s = .negotiating
    · obtain ⟨h₂, h₃⟩ := h.before (hopener hneg)
      exact .of_not_mem (by simp [h₂, hneg]) (by simp [h₃, hneg])
    · exact h.never.append hneg

theorem Ordered.step {t t' : St} {a : Action} (h : Ordered t) (hok : OnTime t a) (hstep : step t a = some t') :
    Ordered t' := by
  have hroles := roles_step h.roles hstep
  cases a with
  | step th =>
    obtain ⟨-, tlock, rfl⟩ := stepThread_eq hstep
    exact h.go hok
  | notify =>
    obtain ⟨hn, hstep⟩ := Option.ite_none_left_eq_some.mp hstep
    obtain rfl := Option.some.inj hstep
    exact h.of_same hroles rfl fun _ => .inl (by simpa using hn)
  | recv m =>
    obtain ⟨-, hstep⟩ := Option.ite_none_right_eq_some.mp hstep
    obtain rfl := Option.some.inj hstep
    exact h.of_same hroles rfl (before_of_update (by simp))
  | ask th s =>
    obtain ⟨⟨-, hask⟩, hstep⟩ := Option.ite_none_right_eq_some.mp hstep
    obtain rfl := Option.some.inj hstep
    exact h.of_same hroles rfl (before_of_update hask.ne_opener)

/-! ## Established once -/

/-- The calls of `handle_established` a thread has decided on. -/
def fires : Pc → Nat
  | .inside ops | .calls ops => ops.count (.callback .established)
  | _ => 0

theorem count_exec (op : FsmOp) (c : Crofconn) :
    (op.exec c).2.count (.callback .established) = if op = .callback .established then 1 else 0 := by
  cases op with
  | sendHello => simp only [FsmOp.exec, sendHelloMessage]; split <;> simp
  | waitForHello => simp only [FsmOp.exec]; split <;> simp
  | callback s => cases s <;> rfl
  | _ => rfl

theorem count_next (c : Crofconn) (pc : Pc) : ((next c pc).2 c).2.count (.callback .established) + fires (next c pc).1 =
    fires pc + if pc = .lock .established then 1 else 0 := by
  cases pc with
  | handleRecv m =>
    rcases dispatch_cases c m with hd | ⟨msg, hd⟩ | ⟨errType, hd⟩ | hd <;> simp [next, hd, skip, fires]
  | sendHello msg =>
    have hcount : (sendHelloMessage c).2.count (.callback .established) = 0 := count_exec .sendHello c
    simp [next, fires, hcount]
  | selectVersion msg =>
    simp only [next]
    split <;> simp [skip, assign, fires]
  | errorTest errType =>
    simp only [next]
    split <;> simp [skip, fires]
  | enter s =>
    simp only [next]
    split <;> simp [skip, fires]
  | lock s =>
    cases s <;> rfl
  | inside ops =>
    cases ops with
    | nil => rfl
    | cons op ops =>
      have hcount := count_exec op c
      cases op <;> simp_all [next, skip, fires]
  | calls ops =>
    cases ops with
    | nil => rfl
    | cons op ops =>
      have hcount := count_exec op c
      simp only [next, fires, hcount, List.count_cons, beq_iff_eq]
      simp [Nat.add_comm]
  | _ => simp [next, skip, assign, effect, fires]

/-- Where the RX thread can be once the connection is established: nowhere
from where it would enter another state but on the way down. -/
def Over : Pc → Prop
  | .idle | .handleRecv _ => True
  | .enter s | .lock s => Conn.Terminal s
  | .inside ops | .calls ops => ∀ s, .setState s ∈ ops → Conn.Terminal s
  | _ => False

/-- The callback still comes after the state is entered. -/
def Unfired : Pc → Prop
  | .inside ops => .callback .established ∈ ops → .setState .established ∈ ops
  | .calls ops => .callback .established ∉ ops
  | _ => True

/-- Whether `STATE_ESTABLISHED` has been entered or not, the callback is made
once. -/
structure Once (t : St) : Prop where
  unfired : .established ∉ t.entered → t.log.count (.callback .established) = 0 ∧ Unfired (t.pc .rx)
  fired : .established ∈ t.entered → t.log.count (.callback .established) + fires (t.pc .rx) ≤ 1
  isOver : .established ∈ t.entered → Over (t.pc .rx)
  after : .established ∈ t.entered → ¬ Before t
  state : .established ∈ t.entered → ¬ HandlesHello t.conn.state ∧ t.conn.state ≠ .negotiating2

/-- The state changes where one is entered. -/
theorem state_next {th : Thread} {pc : Pc} (hrole : Role th pc) (c : Crofconn) (h : enters pc = []) :
    ((next c pc).2 c).1.state = c.state := by
  have hexec : ∀ op : FsmOp, (∀ u, op ≠ .setState u) → (op.exec c).1.state = c.state := by
    intro op hop
    rw [FsmOp.exec_state]
    cases op with
    | setState u => exact absurd rfl (hop u)
    | _ => rfl
  cases pc with
  | sendHello msg => exact hexec .sendHello (by simp)
  | selectVersion msg =>
    simp only [next]
    split <;> rfl
  | errorTest errType =>
    simp only [next]
    split <;> rfl
  | inside ops =>
    cases ops with
    | nil => rfl
    | cons op ops =>
      cases op with
      | setState s => cases h
      | callback s => rfl
      | _ => exact hexec _ (by simp)
  | calls ops =>
    cases ops with
    | nil => rfl
    | cons op ops => exact hexec op fun u hu => hrole.2 u (by simp [hu])
  | _ => rfl

theorem dispatch_of_not {c : Crofconn} (h : ¬ HandlesHello c.state ∧ c.state ≠ .negotiating2) (m : Msg) :
    dispatch c m = .idle := by
  unfold dispatch
  cases hs : c.state <;> simp [hs, HandlesHello] at h ⊢

theorem fires_of_role {th : Thread} {pc : Pc} (h : Role th pc) (hth : th ≠ .rx) :
    fires pc = 0 ∧ pc ≠ .lock .established := by
  have htarget : ∀ s, Target th s → s ≠ .established := by
    rintro s hs rfl
    cases th with
    | opener => cases hs
    | rx => exact hth rfl
    | other n => exact absurd hs (by simp [Target, Conn.Terminal])
  have hops : ∀ ops, (∃ s, Target th s ∧ ops <:+ .setState s :: caseOps s) →
      ops.count (.callback .established) = 0 := by
    rintro ops ⟨s, hs, hsuffix⟩
    refine List.count_eq_zero.mpr fun hmem => htarget s hs (callback_mem_caseOps ?_)
    simpa using hsuffix.subset hmem
  cases pc with
  | inside ops => exact ⟨hops ops h, by simp⟩
  | calls ops => exact ⟨hops ops h.1, by simp⟩
  | lock s => exact ⟨rfl, fun heq => htarget s h (by simpa using heq)⟩
  | _ => exact ⟨rfl, by simp⟩

theorem over_next {c : Crofconn} (hc : ¬ HandlesHello c.state ∧ c.state ≠ .negotiating2) {pc : Pc} (h : Over pc) :
    Over (next c pc).1 := by
  cases pc with
  | idle => trivial
  | handleRecv m =>
    simp only [next, dispatch_of_not hc m]
    trivial
  | enter s =>
    simp only [next]
    split
    · trivial
    · exact h
  | lock s =>
    intro u hu
    rcases List.mem_cons.mp hu with heq | hmem
    · obtain rfl : u = s := by simpa using heq
      exact h
    · rcases (setState_mem_caseOps hmem).2 with rfl | rfl <;> decide
  | inside ops =>
    cases ops with
    | nil => trivial
    | cons op ops =>
      have htail : Over (.inside ops) := fun s hs => h s (List.mem_cons_of_mem _ hs)
      cases op <;> first | exact h | exact htail
  | calls ops =>
    cases ops with
    | nil => trivial
    | cons op ops => exact fun s hs => h s (List.mem_cons_of_mem _ hs)
  | _ => exact h.elim

theorem unfired_next {c : Crofconn} {pc : Pc} (hrole : Role .rx pc) (h : Unfired pc) (hs : enters pc ≠ [.established]) :
    ((next c pc).2 c).2.count (.callback .established) = 0 ∧ Unfired (next c pc).1 := by
  have hcount := count_next c pc
  cases pc with
  | handleRecv m =>
    refine ⟨rfl, ?_⟩
    rcases dispatch_cases c m with hd | ⟨msg, hd⟩ | ⟨errType, hd⟩ | hd <;> simp only [next, hd] <;> trivial
  | selectVersion msg =>
    simp only [next]
    split <;> exact ⟨rfl, trivial⟩
  | errorTest errType =>
    simp only [next]
    split <;> exact ⟨rfl, trivial⟩
  | enter s =>
    simp only [next]
    split <;> exact ⟨rfl, trivial⟩
  | lock s =>
    refine ⟨rfl, fun hmem => ?_⟩
    have hmem : .callback .established ∈ caseOps s := by simpa using hmem
    rw [callback_mem_caseOps hmem]
    simp
  | inside ops =>
    cases ops with
    | nil => exact ⟨rfl, trivial⟩
    | cons op ops =>
      have hexec := count_exec op c
      cases op with
      | callback s =>
        obtain ⟨u, -, hops⟩ := hrole
        refine ⟨rfl, fun hmem => setState_not_mem_of_callback hops (u := .established) ?_⟩
        simpa using h hmem
      | setState s =>
        have hne : s ≠ .established := by simpa [enters] using hs
        refine ⟨rfl, fun hmem => ?_⟩
        rcases List.mem_cons.mp (h (List.mem_cons_of_mem _ hmem)) with heq | htail
        · exact absurd (by simpa using heq.symm) hne
        · exact htail
      | _ =>
        refine ⟨by simpa [next] using hexec, fun hmem => ?_⟩
        simpa using h (List.mem_cons_of_mem _ hmem)
  | calls ops =>
    cases ops with
    | nil => exact ⟨rfl, trivial⟩
    | cons op ops =>
      have hexec := count_exec op c
      have hop : op ≠ .callback .established := fun heq => h (by simp [heq])
      rw [if_neg hop] at hexec
      exact ⟨hexec, fun hmem => h (List.mem_cons_of_mem _ hmem)⟩
  | sendHello msg => exact ⟨count_exec .sendHello c, trivial⟩
  | _ => exact ⟨rfl, trivial⟩

/-- The section that enters `STATE_ESTABLISHED` is entered at its beginning. -/
theorem established_section {ops : List FsmOp} (h : Role .rx (.inside (.setState .established :: ops))) :
    ops = caseOps .established := by
  obtain ⟨s, -, hops⟩ := h
  rcases List.suffix_cons_iff.mp hops with heq | htail
  · simp only [List.cons.injEq, FsmOp.setState.injEq] at heq
    obtain ⟨rfl, rfl⟩ := heq
    rfl
  · have hmem := setState_mem_caseOps (htail.subset (by simp : FsmOp.setState .established ∈ .setState .established :: ops))
    simp at hmem

theorem established_not_mem_enters {th : Thread} {pc : Pc} (h : Role th pc) (hth : th ≠ .rx) :
    .established ∉ enters pc := by
  rcases enters_eq pc with hnone | ⟨s, ops, rfl, hs⟩
  · simp [hnone]
  · have htarget := role_setState h
    rw [hs]
    rintro hmem
    obtain rfl := List.mem_singleton.mp hmem
    cases th with
    | opener => simp [Target] at htarget
    | rx => exact hth rfl
    | other n => exact absurd htarget (by simp [Target, Conn.Terminal])

theorem terminal_down {s : ConnState} (h : Conn.Terminal s) : ¬ HandlesHello s ∧ s ≠ .negotiating2 := by
  cases s <;> simp_all [Conn.Terminal, HandlesHello]

/-- Another thread's step. -/
theorem Once.go_other {t : St} (h : Once t) (hord : Ordered t) {th : Thread} {tlock : Option Thread} (hth : th ≠ .rx) :
    Once (t.go th tlock) := by
  have hrole := hord.roles th
  have hpc : (t.go th tlock).pc .rx = t.pc .rx := by rw [St.go_pc, Function.update_of_ne (Ne.symm hth)]
  have hlog : (t.go th tlock).log.count (.callback .established) = t.log.count (.callback .established) := by
    obtain ⟨hfires, hlock⟩ := fires_of_role hrole hth
    have hcount := count_next t.conn (t.pc th)
    rw [hfires, if_neg hlock] at hcount
    simp only [St.go, List.count_append]
    omega
  have hentered : .established ∈ (t.go th tlock).entered ↔ .established ∈ t.entered := by
    simp [St.go, established_not_mem_enters hrole hth]
  refine ⟨fun hest => ?_, fun hest => ?_, fun hest => ?_, fun hest hb => ?_, fun hest => ?_⟩
  · rw [hlog, hpc]
    exact h.unfired fun hmem => hest (hentered.mpr hmem)
  · rw [hlog, hpc]
    exact h.fired (hentered.mp hest)
  · rw [hpc]
    exact h.isOver (hentered.mp hest)
  · exact h.after (hentered.mp hest) (before_of_go hord.roles hb)
  · have hin₀ := hentered.mp hest
    rcases enters_eq (t.pc th) with hnone | ⟨s, ops, hin, -⟩
    · rw [show (t.go th tlock).conn.state = t.conn.state from state_next hrole t.conn hnone]
      exact h.state hin₀
    · have hstate : (t.go th tlock).conn.state = s := by simp [St.go, hin, next, FsmOp.exec, assign]
      have hahead : Ahead (t.pc th) := by rw [hin]; exact ⟨s, by simp⟩
      have hne : th ≠ .opener := by
        rintro rfl
        exact h.after hin₀ (.inr hahead)
      rw [hstate]
      rw [hin] at hrole
      rcases role_setState hrole with htarget | rfl | rfl
      · cases th with
        | opener => exact absurd rfl hne
        | rx => exact absurd rfl hth
        | other n => exact terminal_down htarget
      · exact terminal_down (by decide)
      · exact terminal_down (by decide)

/-- A step of the RX thread. -/
theorem Once.go_rx {t : St} (h : Once t) (hord : Ordered t) {tlock : Option Thread} (hok : OnTime t (.step .rx)) :
    Once (t.go .rx tlock) := by
  have hrole := hord.roles .rx
  have hpc : (t.go .rx tlock).pc .rx = (next t.conn (t.pc .rx)).1 := by rw [St.go_pc, Function.update_self]
  have hlog : (t.go .rx tlock).log.count (.callback .established) = t.log.count (.callback .established) +
      ((next t.conn (t.pc .rx)).2 t.conn).2.count (.callback .established) := by simp [St.go]
  have hcount := count_next t.conn (t.pc .rx)
  have hentered : (t.go .rx tlock).entered = t.entered ++ enters (t.pc .rx) := rfl
  by_cases hest : .established ∈ t.entered
  · have hover := h.isOver hest
    have hmem : .established ∈ (t.go .rx tlock).entered := by simp [hentered, hest]
    refine ⟨fun hno => absurd hmem hno, fun _ => ?_, fun _ => ?_, fun _ hb => h.after hest (before_of_go hord.roles hb),
      fun _ => ?_⟩
    · have hlock : t.pc .rx ≠ .lock .established := by
        intro hin
        rw [hin] at hover
        exact absurd hover (by simp [Over, Conn.Terminal])
      have hfired := h.fired hest
      rw [if_neg hlock] at hcount
      rw [hlog, hpc]
      omega
    · rw [hpc]
      exact over_next (h.state hest) hover
    · rcases enters_eq (t.pc .rx) with hnone | ⟨s, ops, hin, -⟩
      · rw [show (t.go .rx tlock).conn.state = t.conn.state from state_next hrole t.conn hnone]
        exact h.state hest
      · have hstate : (t.go .rx tlock).conn.state = s := by simp [St.go, hin, next, FsmOp.exec, assign]
        rw [hstate]
        rw [hin] at hover
        exact terminal_down (hover s (by simp))
  obtain ⟨hzero, hunfired⟩ := h.unfired hest
  by_cases hs : enters (t.pc .rx) = [.established]
  · -- `STATE_ESTABLISHED` is entered in this step
    obtain ⟨ops, hin⟩ : ∃ ops, t.pc .rx = .inside (.setState .established :: ops) := by
      rcases enters_eq (t.pc .rx) with hnone | ⟨s, ops, hin, hone⟩
      · rw [hnone] at hs
        cases hs
      · rw [hone] at hs
        obtain rfl := List.singleton_inj.mp hs
        exact ⟨ops, hin⟩
    rw [hin] at hrole
    have hops := established_section hrole
    have hnext : (next t.conn (t.pc .rx)).1 = .inside (caseOps .established) := by rw [hin, hops]; rfl
    refine ⟨fun hno => absurd (by simp [hentered, hs]) hno, fun _ => ?_, fun _ => ?_, fun _ hb => ?_, fun _ => ?_⟩
    · have heffects : ((next t.conn (t.pc .rx)).2 t.conn).2 = [] := by rw [hin]; rfl
      rw [hlog, hpc, hnext, heffects, hzero]
      decide
    · rw [hpc, hnext]
      simp [Over, caseOps]
    · obtain ⟨hn, hidle⟩ := hok rfl .established (by simp [hs]) (by simp)
      exact not_before_of_idle hn hidle (before_of_go hord.roles hb)
    · have hstate : (t.go .rx tlock).conn.state = .established := by simp [St.go, hin, next, FsmOp.exec, assign]
      rw [hstate]
      decide
  · have hno : .established ∉ (t.go .rx tlock).entered := by
      rw [hentered]
      rcases enters_eq (t.pc .rx) with hnone | ⟨s, ops, -, hone⟩
      · simp [hest, hnone]
      · rw [hone] at hs ⊢
        simp only [List.mem_append, hest, List.mem_singleton, false_or]
        exact fun heq => hs (by rw [heq])
    obtain ⟨heffects, hunfired'⟩ := unfired_next (c := t.conn) hrole hunfired hs
    refine ⟨fun _ => ⟨by rw [hlog, hzero, heffects], by rw [hpc]; exact hunfired'⟩, ?_, ?_, ?_, ?_⟩ <;>
      exact fun hmem => absurd hmem hno

theorem Once.step {t t' : St} {a : Action} (h : Once t) (hord : Ordered t) (hok : OnTime t a)
    (hstep : step t a = some t') : Once t' := by
  cases a with
  | step th =>
    obtain ⟨-, tlock, rfl⟩ := stepThread_eq hstep
    by_cases hth : th = .rx
    · subst hth
      exact h.go_rx hord hok
    · exact h.go_other hord hth
  | notify =>
    obtain ⟨hn, hstep⟩ := Option.ite_none_left_eq_some.mp hstep
    obtain rfl := Option.some.inj hstep
    have hrx : Function.update t.pc .opener (.enter .negotiating) .rx = t.pc .rx := Function.update_of_ne (by simp) _ _
    have hbefore : Before t := .inl (by simpa using hn)
    refine ⟨fun hest => ?_, fun hest => absurd hbefore (h.after hest), fun hest => absurd hbefore (h.after hest),
      fun hest => absurd hbefore (h.after hest), h.state⟩
    dsimp only
    rw [hrx]
    exact h.unfired hest
  | recv m =>
    obtain ⟨hidle, hstep⟩ := Option.ite_none_right_eq_some.mp hstep
    obtain rfl := Option.some.inj hstep
    refine ⟨fun hest => ⟨(h.unfired hest).1, ?_⟩, fun hest => ?_, fun hest => ?_, fun hest hb => ?_, h.state⟩
    · simp [Unfired]
    · have hfired := h.fired hest
      simp only [Function.update_self, fires, hidle] at hfired ⊢
      exact hfired
    · simp [Over]
    · exact h.after hest (before_of_update (by simp) hb)
  | ask th s =>
    obtain ⟨⟨hidle, hask⟩, hstep⟩ := Option.ite_none_right_eq_some.mp hstep
    obtain rfl := Option.some.inj hstep
    have hbefore := before_of_update (t := t) (p := .enter s) hask.ne_opener
    by_cases hth : th = .rx
    · subst hth
      obtain rfl : s = .disconnected := hask
      refine ⟨fun hest => ⟨(h.unfired hest).1, ?_⟩, fun hest => ?_, fun hest => ?_,
        fun hest hb => h.after hest (hbefore hb), h.state⟩
      · simp [Unfired]
      · have hfired := h.fired hest
        simp only [Function.update_self, fires, hidle] at hfired ⊢
        exact hfired
      · simp [Over, Conn.Terminal]
    · have hrx : Function.update t.pc th (.enter s) .rx = t.pc .rx := Function.update_of_ne (Ne.symm hth) _ _
      refine ⟨fun hest => ?_, fun hest => ?_, fun hest => ?_, fun hest hb => h.after hest (hbefore hb), h.state⟩
      · dsimp only
        rw [hrx]
        exact h.unfired hest
      · dsimp only
        rw [hrx]
        exact h.fired hest
      · dsimp only
        rw [hrx]
        exact h.isOver hest

/-! ## A HELLO that comes early -/

/-- What the claim of two equal outcomes is about. -/
def outcome (c : Crofconn) : ConnState × UInt8 := (c.state, c.ofpVersion)

/-- The two objects differ in nothing the handling of a HELLO depends on: both
are in a state in which it is handled. -/
structure Agrees (c d : Crofconn) : Prop where
  own : c.versionbitmap = d.versionbitmap
  peer : c.versionbitmapPeer = d.versionbitmapPeer
  version : c.ofpVersion = d.ofpVersion
  mode : c.mode = d.mode
  handles : HandlesHello c.state
  handles' : HandlesHello d.state

theorem Agrees.refl {c : Crofconn} (h : HandlesHello c.state) : Agrees c c := ⟨rfl, rfl, rfl, rfl, h, h⟩

theorem Agrees.trans {a b c : Crofconn} (h : Agrees a b) (h' : Agrees b c) : Agrees a c :=
  ⟨h.own.trans h'.own, h.peer.trans h'.peer, h.version.trans h'.version, h.mode.trans h'.mode, h.handles, h'.handles'⟩

theorem outcome_section (s : ConnState) {c d : Crofconn} (h : c.ofpVersion = d.ofpVersion) :
    outcome (execAll (.setState s :: caseOps s) c).1 = outcome (execAll (.setState s :: caseOps s) d).1 := by
  simp only [outcome, execAll_enter_state, execAll_ofpVersion, h]

theorem Agrees.run {c d : Crofconn} (h : Agrees c d) {s : ConnState} (hs : ¬ HandlesHello s) :
    outcome (runFiniteStateMachine s c).1 = outcome (runFiniteStateMachine s d).1 := by
  have hne : ∀ e : Crofconn, HandlesHello e.state → e.state ≠ s := by
    rintro e he rfl
    exact hs he
  rw [runFiniteStateMachine_of_ne (hne c h.handles), runFiniteStateMachine_of_ne (hne d h.handles')]
  exact outcome_section s h.version

theorem not_handlesHello_moveOnTo (c : Crofconn) : ¬ HandlesHello (moveOnTo c) := by
  unfold moveOnTo
  split
  · decide
  · split
    · split <;> decide
    · decide
    · decide

theorem Agrees.moveOn {c d : Crofconn} (h : Agrees c d) : outcome (moveOn c).1 = outcome (moveOn d).1 := by
  have hto : moveOnTo c = moveOnTo d := by simp only [moveOnTo, h.version, h.mode]
  rw [moveOn_eq, moveOn_eq, ← hto]
  exact h.run (not_handlesHello_moveOnTo c)

theorem Agrees.selectVersion {c d : Crofconn} (h : Agrees c d) (msg : CofmsgHello) :
    outcome (selectVersion msg c).1 = outcome (selectVersion msg d).1 := by
  simp only [Crofconn.selectVersion, h.own, h.peer]
  split
  · simp only [Crofconn.helloIncompatible, seq, effect]
    exact h.run (by decide)
  · exact Agrees.moveOn ⟨rfl, rfl, rfl, h.mode, h.handles, h.handles'⟩

theorem Agrees.atSelection {c d : Crofconn} (h : Agrees c d) (msg : CofmsgHello) :
    Agrees (c.atSelection msg) (d.atSelection msg) := by
  have hkeep : ∀ e : Crofconn, (e.atSelection msg).versionbitmap = e.versionbitmap ∧
      (e.atSelection msg).ofpVersion = e.ofpVersion ∧ (e.atSelection msg).mode = e.mode := by
    intro e
    unfold Crofconn.atSelection sendHelloMessage
    split <;> exact ⟨rfl, rfl, rfl⟩
  refine ⟨?_, ?_, ?_, ?_, ?_, ?_⟩
  · rw [(hkeep c).1, (hkeep d).1, h.own]
  · exact congrArg (Crofconn.peerVersions · msg) h.peer
  · rw [(hkeep c).2.1, (hkeep d).2.1, h.version]
  · rw [(hkeep c).2.2, (hkeep d).2.2, h.mode]
  · rw [Reconnect.atSelection_state]
    exact h.handles
  · rw [Reconnect.atSelection_state]
    exact h.handles'

theorem Agrees.helloRcvd {c d : Crofconn} (h : Agrees c d) (msg : CofmsgHello) :
    outcome (helloRcvd msg c).1 = outcome (helloRcvd msg d).1 := by
  rw [helloRcvd_eq, helloRcvd_eq]
  exact (h.atSelection msg).selectVersion msg

/-- The RX thread handles a HELLO and has not moved the machine yet. -/
def Early (c : Crofconn) : Pc → Prop
  | .handleRecv m => ∃ msg, m = .hello msg ∧ msg.version ≠ Openflow.OFP_VERSION_UNKNOWN
  | .sendHello _ | .setHelloRcvd _ | .dropTimer _ | .peerVersions _ | .selectVersion _ | .helloIncompatible _ => True
  | .moveOn => c.ofpVersion ≠ Openflow.OFP_VERSION_UNKNOWN
  | .enter s | .lock s => ¬ HandlesHello s ∧ s ≠ .disconnected
  | .inside ops => ∃ s, ¬ HandlesHello s ∧ s ≠ .disconnected ∧ ops = .setState s :: caseOps s
  | _ => False

theorem Early.congr {c d : Crofconn} {pc : Pc} (h : Early c pc) (hv : c.ofpVersion = d.ofpVersion) : Early d pc := by
  cases pc with
  | moveOn => exact fun hd => h (hv.trans hd)
  | _ => exact h

theorem recv_hello {c : Crofconn} (h : HandlesHello c.state) {msg : CofmsgHello}
    (hv : msg.version ≠ Openflow.OFP_VERSION_UNKNOWN) : recv (.hello msg) c = Crofconn.helloRcvd msg c := by
  have hv' : Msg.version (.hello msg) ≠ Openflow.OFP_VERSION_UNKNOWN := hv
  unfold recv
  rcases h with h | h | h <;> simp only [h, hv', if_false]

theorem Agrees.rest {c d : Crofconn} (h : Agrees c d) {pc : Pc} (he : Early c pc) :
    outcome (rest pc c).1 = outcome (rest pc d).1 := by
  have hpeer : ∀ msg, Agrees { c with versionbitmapPeer := Crofconn.peerVersions c.versionbitmapPeer msg }
      { d with versionbitmapPeer := Crofconn.peerVersions d.versionbitmapPeer msg } := fun msg =>
    ⟨h.own, congrArg (Crofconn.peerVersions · msg) h.peer, h.version, h.mode, h.handles, h.handles'⟩
  cases pc with
  | handleRecv m =>
    obtain ⟨msg, rfl, hv⟩ := he
    simp only [Opening.rest, recv_hello h.handles hv, recv_hello h.handles' hv]
    exact h.helloRcvd msg
  | sendHello msg => exact h.helloRcvd msg
  | setHelloRcvd msg =>
    simp only [Opening.rest, seq, assign, effect]
    refine Agrees.selectVersion ?_ msg
    exact ⟨h.own, (hpeer msg).peer, h.version, h.mode, h.handles, h.handles'⟩
  | dropTimer msg | peerVersions msg =>
    simp only [Opening.rest, seq, assign, effect]
    exact (hpeer msg).selectVersion msg
  | selectVersion msg => exact h.selectVersion msg
  | helloIncompatible msg =>
    simp only [Opening.rest, Crofconn.helloIncompatible, seq, effect]
    exact h.run (by decide)
  | moveOn => exact h.moveOn
  | enter s => exact h.run he.1
  | lock s => exact outcome_section s h.version
  | inside ops =>
    obtain ⟨s, -, -, rfl⟩ := he
    exact outcome_section s h.version
  | _ => exact he.elim

theorem moveOnTo_ne_disconnected {c : Crofconn} (h : c.ofpVersion ≠ Openflow.OFP_VERSION_UNKNOWN) :
    moveOnTo c ≠ .disconnected := by
  unfold moveOnTo
  rw [if_neg h]
  split
  · split <;> simp
  · simp
  · simp

/-- Up to the section that moves the machine. -/
theorem early_next {c : Crofconn} {pc : Pc} (h : Early c pc) (hc : HandlesHello c.state) :
    (∃ ops, pc = .inside ops) ∨ Early ((next c pc).2 c).1 (next c pc).1 ∧ enters pc = [] := by
  cases pc with
  | handleRecv m =>
    obtain ⟨msg, rfl, hv⟩ := h
    have hv' : Msg.version (.hello msg) ≠ Openflow.OFP_VERSION_UNKNOWN := hv
    have hd : dispatch c (.hello msg) = .sendHello msg := by
      unfold dispatch
      rcases hc with hc | hc | hc <;> simp only [hc, hv', if_false]
    simp only [next, hd]
    exact .inr ⟨trivial, rfl⟩
  | selectVersion msg =>
    simp only [next]
    split
    · exact .inr ⟨trivial, rfl⟩
    · next hv => exact .inr ⟨hv, rfl⟩
  | helloIncompatible msg => exact .inr ⟨⟨by decide, by decide⟩, rfl⟩
  | moveOn => exact .inr ⟨⟨not_handlesHello_moveOnTo c, moveOnTo_ne_disconnected h⟩, rfl⟩
  | enter s =>
    have hs : c.state ≠ s := by
      rintro rfl
      exact h.1 hc
    simp only [next, hs, if_false]
    exact .inr ⟨h, rfl⟩
  | lock s => exact .inr ⟨⟨s, h.1, h.2, rfl⟩, rfl⟩
  | inside ops => exact .inl ⟨ops, rfl⟩
  | sendHello msg | setHelloRcvd msg | dropTimer msg | peerVersions msg => exact .inr ⟨trivial, rfl⟩
  | _ => exact h.elim

/-- What the opening thread does on its way to `STATE_NEGOTIATING`. -/
theorem agrees_exec {op : FsmOp} (h : op ∈ FsmOp.setState .negotiating :: caseOps .negotiating) {c : Crofconn}
    (hc : HandlesHello c.state) : Agrees c (op.exec c).1 := by
  simp only [caseOps, List.mem_cons, List.not_mem_nil, or_false] at h
  rcases h with rfl | rfl | rfl
  · exact ⟨rfl, rfl, rfl, rfl, hc, .inr (.inr rfl)⟩
  · simp only [FsmOp.exec]
    split <;> exact .refl hc
  · simp only [FsmOp.exec, sendHelloMessage]
    split
    · exact .refl hc
    · exact ⟨rfl, rfl, rfl, rfl, hc, hc⟩

theorem agrees_execAll {ops : List FsmOp} (h : ops ⊆ FsmOp.setState .negotiating :: caseOps .negotiating)
    {c : Crofconn} (hc : HandlesHello c.state) : Agrees c (execAll ops c).1 := by
  induction ops generalizing c with
  | nil => exact .refl hc
  | cons op ops ih =>
    have hop := agrees_exec (h List.mem_cons_self) hc
    exact hop.trans (ih (fun o ho => h (List.mem_cons_of_mem _ ho)) hop.handles')

theorem agrees_next {pc : Pc} (hrole : Role .opener pc) {c : Crofconn} (hc : HandlesHello c.state) :
    Agrees c ((next c pc).2 c).1 := by
  cases pc with
  | inside ops =>
    obtain ⟨s, rfl, hops⟩ := hrole
    cases ops with
    | nil => exact .refl hc
    | cons op ops =>
      have hop := agrees_exec (hops.subset List.mem_cons_self) hc
      cases op <;> exact hop
  | calls ops =>
    obtain ⟨⟨s, rfl, hops⟩, -⟩ := hrole
    cases ops with
    | nil => exact .refl hc
    | cons op ops => exact agrees_exec (hops.subset List.mem_cons_self) hc
  | enter s =>
    simp only [next]
    exact .refl hc
  | idle | lock s => exact .refl hc
  | _ => cases hrole

/-- The opening thread enters `STATE_NEGOTIATING` first of all. -/
theorem opener_section {ops : List FsmOp} (h : Role .opener (.inside ops)) :
    ops = .setState .negotiating :: caseOps .negotiating ∨ ¬ Ahead (.inside ops) := by
  obtain ⟨s, rfl, hops⟩ := h
  rcases List.suffix_cons_iff.mp hops with heq | htail
  · exact .inl heq
  · refine .inr ?_
    rintro ⟨u, hu⟩
    have hmem := setState_mem_caseOps (htail.subset hu)
    exact absurd hmem.1 (by decide)

/-- When the opening thread has moved the machine, the state is
`STATE_NEGOTIATING`. -/
theorem negotiating_next {pc : Pc} (hrole : Role .opener pc) {c : Crofconn}
    (h : ¬ Ahead pc → c.state = .negotiating) (ha : ¬ Ahead (next c pc).1) :
    ((next c pc).2 c).1.state = .negotiating := by
  cases pc with
  | enter s =>
    obtain rfl : s = .negotiating := hrole
    by_contra hs
    have hs : c.state ≠ .negotiating := hs
    exact ha (by simp [next, hs, Ahead])
  | lock s => exact absurd ⟨s, by simp⟩ ha
  | inside ops =>
    rcases opener_section hrole with rfl | hno
    · rfl
    · have hnone : enters (.inside ops) = [] := by
        rcases enters_eq (.inside ops) with hnone | ⟨s, ops', heq, -⟩
        · exact hnone
        · obtain rfl : ops = .setState s :: ops' := by simpa using heq
          exact absurd ⟨s, by simp⟩ hno
      rw [state_next hrole c hnone]
      exact h hno
  | calls ops =>
    rw [state_next hrole c rfl]
    exact h id
  | idle => exact h id
  | _ => cases hrole

/-- No message comes and nobody ends the connection. -/
def Undisturbed : Action → Prop
  | .step _ | .notify => True
  | _ => False

instance : DecidablePred Undisturbed
  | .step _ | .notify => inferInstanceAs (Decidable True)
  | .recv _ | .ask _ _ => inferInstanceAs (Decidable False)

/-- The RX thread has nothing to do. -/
structure Waits (c₀ : Crofconn) (t : St) : Prop where
  roles : Roles t
  others : ∀ n, t.pc (.other n) = .idle
  rx : t.pc .rx = .idle ∨ ∃ msg, t.pc .rx = .handleRecv (.hello msg) ∧ msg.version = Openflow.OFP_VERSION_UNKNOWN
  agrees : Agrees c₀ t.conn
  done : ¬ Before t → t.conn.state = .negotiating

/-- The RX thread handles a HELLO that is to have the outcome `r`, and moves
the machine after the opening thread. -/
structure Moves (r : ConnState × UInt8) (t : St) : Prop where
  roles : Roles t
  others : ∀ n, t.pc (.other n) = .idle
  result : outcome (rest (t.pc .rx) t.conn).1 = r
  phase : Early t.conn (t.pc .rx) ∧ HandlesHello t.conn.state ∨ t.notified = true ∧ t.pc .opener = .idle

theorem Waits.step {c₀ : Crofconn} {t t' : St} {a : Action} (h : Waits c₀ t) (ha : Undisturbed a)
    (hstep : step t a = some t') : Waits c₀ t' := by
  have hroles := roles_step h.roles hstep
  cases a with
  | step th =>
    obtain ⟨hidle, tlock, rfl⟩ := stepThread_eq hstep
    cases th with
    | other n => exact absurd (h.others n) hidle
    | opener =>
      have hagrees := agrees_next (h.roles .opener) h.agrees.handles'
      refine ⟨hroles, fun n => ?_, ?_, h.agrees.trans hagrees, fun hb => ?_⟩
      · rw [St.go_pc, Function.update_of_ne (by simp)]
        exact h.others n
      · rw [St.go_pc, Function.update_of_ne (by simp)]
        exact h.rx
      · simp only [Before, Function.update_self, not_or, St.go] at hb
        exact negotiating_next (h.roles .opener) (fun hno => h.done (by simp [Before, hb.1, hno])) hb.2
    | rx =>
      obtain ⟨msg, hpc, hv⟩ := h.rx.resolve_left hidle
      have hd : dispatch t.conn (.hello msg) = .idle := by
        unfold dispatch
        rcases h.agrees.handles' with hc | hc | hc <;> simp [hc, Msg.version, hv]
      have hconn : (t.go .rx tlock).conn = t.conn := by simp [St.go, hpc, next, skip]
      refine ⟨hroles, fun n => ?_, .inl ?_, by rw [hconn]; exact h.agrees, fun hb => ?_⟩
      · rw [St.go_pc, Function.update_of_ne (by simp)]
        exact h.others n
      · rw [St.go_pc, Function.update_self, hpc]
        exact hd
      · rw [hconn]
        refine h.done fun hb' => hb (hb'.imp_right fun ha => ?_)
        rwa [St.go_pc, Function.update_of_ne (by simp)]
  | notify =>
    obtain ⟨-, hstep⟩ := Option.ite_none_left_eq_some.mp hstep
    obtain rfl := Option.some.inj hstep
    refine ⟨hroles, fun n => ?_, ?_, h.agrees, fun hb => absurd (.inr ?_) hb⟩
    · dsimp only
      rw [Function.update_of_ne (by simp)]
      exact h.others n
    · dsimp only
      rw [Function.update_of_ne (by simp)]
      exact h.rx
    · dsimp only
      rw [Function.update_self]
      trivial
  | recv m => exact ha.elim
  | ask th s => exact ha.elim

theorem Moves.step {r : ConnState × UInt8} {t t' : St} {a : Action} (h : Moves r t) (ha : Undisturbed a)
    (hok : OnTime t a) (hstep : step t a = some t') : Moves r t' := by
  have hroles := roles_step h.roles hstep
  cases a with
  | step th =>
    obtain ⟨hidle, tlock, rfl⟩ := stepThread_eq hstep
    cases th with
    | other n => exact absurd (h.others n) hidle
    | opener =>
      have hothers : ∀ n, (t.go .opener tlock).pc (.other n) = .idle := fun n => by
        rw [St.go_pc, Function.update_of_ne (by simp)]
        exact h.others n
      have hrx : (t.go .opener tlock).pc .rx = t.pc .rx := by rw [St.go_pc, Function.update_of_ne (by simp)]
      rcases h.phase with ⟨hearly, hhello⟩ | ⟨-, hop⟩
      · have hagrees := agrees_next (h.roles .opener) hhello
        refine ⟨hroles, hothers, ?_, .inl ⟨?_, hagrees.handles'⟩⟩
        · rw [hrx, ← h.result]
          exact (hagrees.rest hearly).symm
        · rw [hrx]
          exact hearly.congr hagrees.version
      · exact absurd hop hidle
    | rx =>
      have hothers : ∀ n, (t.go .rx tlock).pc (.other n) = .idle := fun n => by
        rw [St.go_pc, Function.update_of_ne (by simp)]
        exact h.others n
      have hopener : (t.go .rx tlock).pc .opener = t.pc .opener := by
        rw [St.go_pc, Function.update_of_ne (by simp)]
      have hresult : outcome (rest ((t.go .rx tlock).pc .rx) (t.go .rx tlock).conn).1 = r := by
        rw [St.go_pc, Function.update_self, ← h.result, ← rest_next t.conn (t.pc .rx)]
        rfl
      refine ⟨hroles, hothers, hresult, ?_⟩
      rcases h.phase with ⟨hearly, hhello⟩ | ⟨hn, hop⟩
      · rcases early_next hearly hhello with ⟨ops, hin⟩ | ⟨hearly', hnone⟩
        · rw [hin] at hearly
          obtain ⟨s, -, hs, rfl⟩ := hearly
          obtain ⟨hn, hop⟩ := hok rfl s (by simp [hin, enters]) hs
          exact .inr ⟨hn, hopener.trans hop⟩
        · refine .inl ⟨?_, ?_⟩
          · rw [St.go_pc, Function.update_self]
            exact hearly'
          · rw [show (t.go .rx tlock).conn.state = t.conn.state from state_next (h.roles .rx) t.conn hnone]
            exact hhello
      · exact .inr ⟨hn, hopener.trans hop⟩
  | notify =>
    obtain ⟨hn, hstep⟩ := Option.ite_none_left_eq_some.mp hstep
    obtain rfl := Option.some.inj hstep
    have hrx : Function.update t.pc .opener (.enter .negotiating) .rx = t.pc .rx := Function.update_of_ne (by simp) _ _
    refine ⟨hroles, fun n => ?_, ?_, ?_⟩
    · dsimp only
      rw [Function.update_of_ne (by simp)]
      exact h.others n
    · dsimp only
      rw [hrx]
      exact h.result
    · dsimp only
      rw [hrx]
      exact h.phase.imp_right fun hphase => absurd hphase.1 hn
  | recv m => exact ha.elim
  | ask th s => exact ha.elim

/-- What a run hears from outside the two threads. -/
def heard (as : List Action) : List Action := as.filter fun a => ¬ Undisturbed a

theorem heard_eq_singleton {as : List Action} {a : Action} (h : heard as = [a]) :
    ∃ as₁ as₂, as = as₁ ++ a :: as₂ ∧ (∀ b ∈ as₁, Undisturbed b) ∧ ∀ b ∈ as₂, Undisturbed b := by
  obtain ⟨as₁, as₂, rfl, h₁, -, h₂⟩ := List.filter_eq_cons_iff.mp h
  refine ⟨as₁, as₂, rfl, fun b hb => by simpa using h₁ b hb, fun b hb => ?_⟩
  simpa using List.filter_eq_nil_iff.mp h₂ b hb

/-- The RX thread gets its HELLO. -/
def St.receive (t : St) (msg : CofmsgHello) : St :=
  { t with pc := Function.update t.pc .rx (.handleRecv (.hello msg)) }

theorem St.receive_rx (t : St) (msg : CofmsgHello) : (t.receive msg).pc .rx = .handleRecv (.hello msg) := by
  simp [St.receive]

theorem St.receive_of_ne (t : St) (msg : CofmsgHello) {th : Thread} (h : th ≠ .rx) : (t.receive msg).pc th = t.pc th :=
  Function.update_of_ne h _ _

/-- The message is dropped. -/
theorem Waits.receive {c₀ : Crofconn} {t : St} (h : Waits c₀ t) {msg : CofmsgHello}
    (hv : msg.version = Openflow.OFP_VERSION_UNKNOWN) : Waits c₀ (t.receive msg) := by
  refine ⟨roles_update h.roles (p := .handleRecv (.hello msg)) rfl, fun n => ?_, .inr ⟨msg, t.receive_rx msg, hv⟩,
    h.agrees, fun hb => h.done fun hb' => hb (hb'.imp_right fun ha => ?_)⟩
  · rw [t.receive_of_ne msg (by simp)]
    exact h.others n
  · rwa [t.receive_of_ne msg (by simp)]

theorem Waits.moves {c₀ : Crofconn} {t : St} (h : Waits c₀ t) {msg : CofmsgHello}
    (hv : msg.version ≠ Openflow.OFP_VERSION_UNKNOWN) :
    Moves (outcome (recv (.hello msg) t.conn).1) (t.receive msg) := by
  refine ⟨roles_update h.roles (p := .handleRecv (.hello msg)) rfl, fun n => ?_, ?_, .inl ⟨?_, h.agrees.handles'⟩⟩
  · rw [t.receive_of_ne msg (by simp)]
    exact h.others n
  · rw [t.receive_rx]
    rfl
  · rw [t.receive_rx]
    exact ⟨msg, rfl, hv⟩

/-- Moved by the opening thread alone. -/
theorem agrees_negotiating {c : Crofconn} (hc : c.state = .connectPending ∨ c.state = .acceptPending) :
    Agrees c (runFiniteStateMachine .negotiating c).1 ∧
      (runFiniteStateMachine .negotiating c).1.state = .negotiating := by
  have hhandles : HandlesHello c.state := by rcases hc with h | h <;> simp [h, HandlesHello]
  have hne : c.state ≠ .negotiating := by rcases hc with h | h <;> simp [h]
  rw [runFiniteStateMachine_of_ne hne]
  exact ⟨agrees_execAll (List.Subset.refl _) hhandles, execAll_enter_state .negotiating c⟩

/-- **A HELLO that comes early** has the outcome it has in `STATE_NEGOTIATING`,
if the opening thread moves the machine first. -/
theorem outcome_of_hello {c : Crofconn} (hc : c.state = .connectPending ∨ c.state = .acceptPending)
    {as : List Action} {t : St} {msg : CofmsgHello} (hheard : heard as = [.recv (.hello msg)])
    (hrun : Runs.run step (.start c) as = some t) (hok : Runs.Meets step OnTime (.start c) as)
    (hn : t.notified = true) (hidle : ∀ th, t.pc th = .idle) :
    outcome t.conn = outcome (recv (.hello msg) (runFiniteStateMachine .negotiating c).1).1 := by
  have hhandles : HandlesHello c.state := by rcases hc with h | h <;> simp [h, HandlesHello]
  obtain ⟨hneg, hnegstate⟩ := agrees_negotiating hc
  obtain ⟨as₁, as₂, rfl, has₁, has₂⟩ := heard_eq_singleton hheard
  obtain ⟨t₁, hrun₁, hrun₂⟩ := Runs.run_append.mp hrun
  obtain ⟨t₂, hrecv, hrun₂⟩ := Runs.run_cons.mp hrun₂
  obtain ⟨-, hok₂⟩ := (Runs.meets_append hrun₁).mp hok
  have hok₂ := ((Runs.meets_cons hrecv).mp hok₂).2
  have hwaits₀ : Waits c (.start c) :=
    ⟨fun _ => trivial, fun _ => rfl, .inl rfl, .refl hhandles, fun hb => absurd (.inl rfl) hb⟩
  have hwaits : Waits c t₁ := Runs.invariant_of_meets (fun _ _ _ h ha hstep => h.step ha hstep) hwaits₀
    (Runs.meets_of_forall has₁) hrun₁
  obtain rfl : t₁.receive msg = t₂ := Option.some.inj (Option.ite_none_right_eq_some.mp hrecv).2
  by_cases hv : msg.version = Openflow.OFP_VERSION_UNKNOWN
  · have hend : Waits c t := Runs.invariant_of_meets (fun _ _ _ h ha hstep => h.step ha hstep) (hwaits.receive hv)
      (Runs.meets_of_forall has₂) hrun₂
    have hstate := hend.done (not_before_of_idle hn (hidle .opener))
    have hdropped : ∀ d : Crofconn, d.state = .negotiating → (recv (.hello msg) d).1 = d := by
      intro d hd
      simp [recv, hd, Msg.version, hv]
    rw [hdropped _ hnegstate]
    simp only [outcome, hstate, hnegstate, ← hend.agrees.version, ← hneg.version]
  · have hend : Moves (outcome (recv (.hello msg) t₁.conn).1) t := Runs.invariant_of_meets
      (fun _ _ _ h ha hstep => h.step ha.1 ha.2 hstep) (hwaits.moves hv)
      ((Runs.meets_of_forall has₂).and hok₂) hrun₂
    have hresult := hend.result
    rw [hidle .rx] at hresult
    refine hresult.trans ?_
    rw [recv_hello hwaits.agrees.handles' hv, recv_hello hneg.handles' hv]
    have hsame : Agrees t₁.conn (runFiniteStateMachine .negotiating c).1 :=
      Agrees.trans ⟨hwaits.agrees.own.symm, hwaits.agrees.peer.symm, hwaits.agrees.version.symm,
        hwaits.agrees.mode.symm, hwaits.agrees.handles', hwaits.agrees.handles⟩ hneg
    exact hsame.helloRcvd msg

/-! ## All three -/

theorem ordered_start (c : Crofconn) : Ordered (.start c) :=
  ⟨fun _ => trivial, fun _ => by simp [St.start], fun before between after s h => by simp [St.start] at h⟩

theorem once_start (c : Crofconn) : Once (.start c) := by
  refine ⟨fun _ => ⟨rfl, trivial⟩, ?_, ?_, ?_, ?_⟩ <;> exact fun h => by simp [St.start] at h

/-- **The connection opens in order**, in every run in which the RX thread
does not move the machine before the opening thread: the state never
regresses, `handle_established` is called at most once, and a HELLO that comes
before `STATE_NEGOTIATING` has the outcome it has after it. -/
theorem opening_ordered {c : Crofconn} (hc : c.state = .connectPending ∨ c.state = .acceptPending)
    {as : List Action} {t : St} (hrun : Runs.run step (.start c) as = some t)
    (hok : Runs.Meets step OnTime (.start c) as) :
    NeverRegresses t.entered ∧ t.log.count (.callback .established) ≤ 1 ∧
      ∀ msg, heard as = [.recv (.hello msg)] → t.notified = true → (∀ th, t.pc th = .idle) →
        outcome t.conn = outcome (recv (.hello msg) (runFiniteStateMachine .negotiating c).1).1 := by
  have hinv : Ordered t ∧ Once t := Runs.invariant_of_meets (I := fun t => Ordered t ∧ Once t)
    (fun _ _ _ h hok hstep => ⟨h.1.step hok hstep, h.2.step h.1 hok hstep⟩) ⟨ordered_start c, once_start c⟩ hok hrun
  refine ⟨hinv.1.never, ?_, fun msg hheard hn hidle => outcome_of_hello hc hheard hrun hok hn hidle⟩
  by_cases hest : .established ∈ t.entered
  · have hfired := hinv.2.fired hest
    omega
  · have hunfired := (hinv.2.unfired hest).1
    omega

/-- A datapath that has called `tcp_accept` with versions 1.0 and 1.2. -/
def accepting : Crofconn :=
  (((tcpAccept Reconnect.lowVersions.1 .datapath (.new 0 0)).map Prod.fst).getD (.new 0 0))

/-- A HELLO with header version 1.0. -/
def helloLow : Msg := .hello ⟨Openflow10.OFP_VERSION, 0, none⟩

/-- `handle_tcp_accepted` runs to its end, then a HELLO comes. -/
theorem opening_ordered_timely : ∃ t, Runs.run step (.start accepting) (.notify :: List.replicate 6 (.step .opener) ++
      .recv helloLow :: List.replicate 15 (.step .rx)) = some t ∧ outcome t.conn = (.established, 1) ∧
    NeverRegresses t.entered ∧ t.log.count (.callback .established) ≤ 1 := by
  obtain ⟨t, hrun, hout⟩ : ∃ t ∈ Runs.run step (.start accepting) (.notify :: List.replicate 6 (.step .opener) ++
      .recv helloLow :: List.replicate 15 (.step .rx)), outcome t.conn = (.established, 1) := by decide +kernel
  have h := opening_ordered (.inr (by decide +kernel)) hrun (by decide +kernel)
  exact ⟨t, hrun, hout, h.1, h.2.1⟩

/-- The HELLO comes before `handle_tcp_accepted`: the state goes back to
`STATE_NEGOTIATING`, and with the next HELLO `handle_established` is called
again. -/
theorem opening_overtaken : ∃ t, Runs.run step (.start accepting) (.recv helloLow :: List.replicate 15 (.step .rx) ++
      .notify :: List.replicate 6 (.step .opener) ++ .recv helloLow :: List.replicate 15 (.step .rx)) = some t ∧
    t.entered = [.established, .negotiating, .established] ∧ t.log.count (.callback .established) = 2 ∧
    ¬ NeverRegresses t.entered := by
  obtain ⟨t, hrun, hentered, hcount⟩ : ∃ t ∈ Runs.run step (.start accepting) (.recv helloLow ::
      List.replicate 15 (.step .rx) ++ .notify :: List.replicate 6 (.step .opener) ++ .recv helloLow ::
      List.replicate 15 (.step .rx)), t.entered = [.established, .negotiating, .established] ∧
      t.log.count (.callback .established) = 2 := by decide +kernel
  refine ⟨t, hrun, hentered, hcount, fun h => ?_⟩
  have hmem := h [] [] [.established] .established hentered (.inr rfl)
  simp at hmem

end Opening
end RoflCommon
