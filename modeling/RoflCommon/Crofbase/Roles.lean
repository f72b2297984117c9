/-
One master at most, and generation ids that never go backwards.

`Arbiter` is what the requests come to when only those for MASTER and SLAVE
count for the generation. The element agrees with it as long as no request for
EQUAL or NOCHANGE brings a generation id ahead of the cached one, or the first
one at all: `role_request_rcvd` looks at the role only where the id is behind
(`exact_iff_meets_requests`).
-/
import RoflCommon.Crofbase
import RoflCommon.Lib.Runs

namespace RoflCommon

/-- The generation id of the last MASTER or SLAVE request accepted, and the
sender of the last MASTER request accepted, unless it has asked for another role
or has left since. -/
structure Arbiter where
  generation : Option (BitVec 64)
  master : Option ℕ

namespace Arbiter

/-- A MASTER or SLAVE request with the id is accepted. -/
def Takes (a : Arbiter) (generationId : BitVec 64) : Prop :=
  ∀ g ∈ a.generation, 0 ≤ Cofrole.distance generationId g

instance (a : Arbiter) (generationId : BitVec 64) : Decidable (a.Takes generationId) :=
  match h : a.generation with
  | none => isTrue (by simp [Takes, h])
  | some g => decidable_of_iff (0 ≤ Cofrole.distance generationId g) (by simp [Takes, h])

def leave (a : Arbiter) (ctlid : ℕ) : Arbiter := { a with master := a.master.filter (· ≠ ctlid) }

def request (a : Arbiter) (ctlid : ℕ) (role : Ofpcr) (generationId : BitVec 64) : Arbiter :=
  match role with
  | .master => if a.Takes generationId then ⟨some generationId, some ctlid⟩ else a
  | .slave => if a.Takes generationId then { a.leave ctlid with generation := some generationId } else a
  | .equal => a.leave ctlid
  | .noChange => a

theorem master_leave {a : Arbiter} {ctlid id : ℕ} :
    (a.leave ctlid).master = some id ↔ a.master = some id ∧ id ≠ ctlid := by
  simp [leave, Option.filter_eq_some_iff]

end Arbiter

/-- The element beside the arbiter. -/
structure Roles where
  base : Crofbase
  arbiter : Arbiter

namespace Roles

open Crofbase (Act)

/-- The arbiter sees the requests of attached controllers for roles there are. -/
def request (s : Roles) (ctlid role : ℕ) (generationId : BitVec 64) : Arbiter :=
  match s.base.rofctls.find? ctlid, Ofpcr.ofNumber role with
  | some _, some role => s.arbiter.request ctlid role generationId
  | _, _ => s.arbiter

/-- A controller has left when it is gone, or when its channel is. -/
def arbitrate (s : Roles) : Act → Arbiter
  | .addCtl | .setCtl _ | .setAsync _ _ => s.arbiter
  | .addCtlAs ctlid | .dropCtl ctlid | .established ctlid _ | .closed ctlid => s.arbiter.leave ctlid
  | .dropCtls => { s.arbiter with master := none }
  | .roleRequest ctlid role generationId => s.request ctlid role generationId

def step (s : Roles) (a : Act) : Option Roles := (s.base.step a).map fun base => ⟨base, s.arbitrate a⟩

def new : Roles := ⟨.new, ⟨none, none⟩⟩

/-- One master at most, which is the arbiter's; ids that do not go backwards; the
arbiter's answers to MASTER and SLAVE requests, whoever sends them; nothing
cached for the others; nothing changed for a stale request. -/
structure Exact (s : Roles) (a : Act) (s' : Roles) : Prop where
  oneMaster : ∀ i j, s'.base.role i = some .master → s'.base.role j = some .master → i = j
  master : ∀ id, s'.base.role id = some .master ↔ s'.arbiter.master = some id
  forward : s.base.generationIsDefined = true → s'.base.generationIsDefined = true ∧
    0 ≤ Cofrole.distance s'.base.cachedGenerationId s.base.cachedGenerationId
  answers : ∀ id role g, (s'.base.rofctls.find? id).isSome → role = .master ∨ role = .slave →
    ((s'.base.roleRequestRcvd id role g).2 = some .stale ↔ ¬ s'.arbiter.Takes g)
  cached : ∀ id role g, a = .roleRequest id role g →
    Ofpcr.ofNumber role = some .equal ∨ Ofpcr.ofNumber role = some .noChange →
    s'.base.cachedGenerationId = s.base.cachedGenerationId
  stale : ∀ id role g, a = .roleRequest id role g →
    (s.base.handleRoleRequest id role g).2 = some .stale → s'.base = s.base

/-- An EQUAL or NOCHANGE request is behind the cached generation id, or has it
itself. -/
def Ok (s : Roles) : Act → Prop
  | .roleRequest ctlid role g =>
    (s.base.rofctls.find? ctlid).isSome →
      Ofpcr.ofNumber role = some .equal ∨ Ofpcr.ofNumber role = some .noChange →
      s.base.generationIsDefined = true ∧
        (Cofrole.distance g s.base.cachedGenerationId < 0 ∨ g = s.base.cachedGenerationId)
  | _ => True

instance (s : Roles) (a : Act) : Decidable (s.Ok a) :=
  match a with
  | .roleRequest .. => inferInstanceAs (Decidable (_ → _))
  | .addCtl | .addCtlAs _ | .setCtl _ | .dropCtl _ | .dropCtls | .established _ _ | .closed _ | .setAsync _ _ =>
    isTrue trivial

/-- The generation and the master are the arbiter's. -/
structure Agree (s : Roles) : Prop where
  generation : s.arbiter.generation = if s.base.generationIsDefined then some s.base.cachedGenerationId else none
  master : ∀ id, s.base.role id = some .master ↔ s.arbiter.master = some id

theorem agree_new : Agree new := ⟨rfl, fun id => by simp [new]⟩

/-! ## Requests -/

theorem Agree.takes_iff {s : Roles} (h : s.Agree) (g : BitVec 64) : s.arbiter.Takes g ↔
    ¬ (s.base.generationIsDefined = true ∧ Cofrole.distance g s.base.cachedGenerationId < 0) := by
  unfold Arbiter.Takes
  rw [h.generation]
  cases s.base.generationIsDefined <;> simp

theorem roleRequestRcvd_eq_stale {b : Crofbase} {id : ℕ} {role : Ofpcr} {g : BitVec 64} :
    (b.roleRequestRcvd id role g).2 = some .stale ↔
      (b.generationIsDefined = true ∧ Cofrole.distance g b.cachedGenerationId < 0) ∧
        (role = .master ∨ role = .slave) := by
  unfold Crofbase.roleRequestRcvd
  split_ifs with hbehind hrole <;> simp [*]

theorem roleRequestRcvd_of_stale {b : Crofbase} {id : ℕ} {role : Ofpcr} {g : BitVec 64}
    (h : (b.roleRequestRcvd id role g).2 = some .stale) : (b.roleRequestRcvd id role g).1 = b := by
  obtain ⟨hbehind, hrole⟩ := roleRequestRcvd_eq_stale.mp h
  unfold Crofbase.roleRequestRcvd
  rw [if_pos hbehind, if_pos hrole]

/-- Granted a role, a controller is the master exactly if it is MASTER it has
asked for, or NOCHANGE and it has been; another one if it has been and the
request is not for MASTER. -/
theorem Agree.master_grant {s : Roles} (h : s.Agree) {b : Crofbase} (hb : ∀ id, b.role id = s.base.role id)
    {ctlid : ℕ} (hctl : (s.base.role ctlid).isSome) (role : Ofpcr) (id : ℕ) :
    (b.grant ctlid role).role id = some .master ↔
      (match role with
        | .master => some ctlid
        | .slave | .equal => s.arbiter.master.filter (· ≠ ctlid)
        | .noChange => s.arbiter.master) = some id := by
  have hid := h.master id
  cases role with
  | master =>
    rw [Crofbase.role_grant_master, hb]
    by_cases heq : id = ctlid
    · subst heq
      simpa [Option.isSome_iff_exists] using hctl
    · cases hr : s.base.role id with
      | none => simp [Ne.symm heq]
      | some r => by_cases hmaster : r = .master <;> simp [heq, Ne.symm heq, hmaster]
  | slave =>
    rw [Crofbase.role_grant_slave, hb]
    by_cases heq : id = ctlid <;> simp [heq, Option.filter_eq_some_iff, ← hid]
  | equal =>
    rw [Crofbase.role_grant_equal, hb]
    by_cases heq : id = ctlid <;> simp [heq, Option.filter_eq_some_iff, ← hid]
  | noChange => rw [Crofbase.role_grant_noChange, hb, hid]

/-- What a request that is accepted does to the arbiter. -/
theorem request_of_takes {a : Arbiter} {ctlid : ℕ} {role : Ofpcr} {g : BitVec 64} (h : a.Takes g) :
    a.request ctlid role g =
      ⟨if role = .master ∨ role = .slave then some g else a.generation, match role with
        | .master => some ctlid
        | .slave | .equal => a.master.filter (· ≠ ctlid)
        | .noChange => a.master⟩ := by
  cases role <;> simp [Arbiter.request, h, Arbiter.leave]

theorem Agree.roleRequest {s : Roles} (h : s.Agree) {ctlid role : ℕ} {g : BitVec 64}
    (hok : s.Ok (.roleRequest ctlid role g)) :
    Agree ⟨(s.base.handleRoleRequest ctlid role g).1, s.request ctlid role g⟩ := by
  unfold Crofbase.handleRoleRequest request
  cases hrole : Ofpcr.ofNumber role with
  | none => cases s.base.rofctls.find? ctlid <;> exact h
  | some r =>
    cases hctl : s.base.rofctls.find? ctlid with
    | none => exact h
    | some ctl =>
      have hattached : (s.base.role ctlid).isSome := by simp [Crofbase.role, hctl]
      have hgrant := fun b hb => h.master_grant (b := b) hb hattached r
      by_cases hbehind : s.base.generationIsDefined = true ∧ Cofrole.distance g s.base.cachedGenerationId < 0
      · have hnot : ¬ s.arbiter.Takes g := fun ht => (h.takes_iff g).mp ht hbehind
        simp only [Crofbase.roleRequestRcvd, if_pos hbehind]
        specialize hgrant s.base fun id => rfl
        cases r with
        | master | slave =>
          simp only [Arbiter.request, if_neg hnot, reduceCtorEq, or_true, true_or, if_true]
          exact h
        | equal | noChange =>
          exact ⟨by simpa [Arbiter.request, Arbiter.leave] using h.generation, hgrant⟩
      · have ht := (h.takes_iff g).mpr hbehind
        simp only [Crofbase.roleRequestRcvd, if_neg hbehind, request_of_takes ht]
        refine ⟨?_, hgrant _ fun id => rfl⟩
        simp only [Crofbase.generationIsDefined_grant, Crofbase.cachedGenerationId_grant, if_true]
        cases r with
        | master | slave => simp
        | equal | noChange =>
          obtain ⟨hdefined, hg⟩ := hok (by simp [hctl]) (by simp [hrole])
          have hsame : g = s.base.cachedGenerationId := hg.resolve_left fun hlt => hbehind ⟨hdefined, hlt⟩
          simpa [hsame, hdefined] using h.generation

/-! ## Attaching and detaching -/

/-- What leaves the role of every controller but one and the generation alone,
and makes that one no master, is a leaving to the arbiter. -/
theorem Agree.leave {s : Roles} (h : s.Agree) {b : Crofbase} {ctlid : ℕ}
    (hdefined : b.generationIsDefined = s.base.generationIsDefined)
    (hcached : b.cachedGenerationId = s.base.cachedGenerationId) (hleft : b.role ctlid ≠ some .master)
    (hothers : ∀ id, id ≠ ctlid → b.role id = s.base.role id) : Agree ⟨b, s.arbiter.leave ctlid⟩ := by
  refine ⟨?_, fun id => ?_⟩
  · simp only [hdefined, hcached]
    exact h.generation
  · simp only [Arbiter.master_leave]
    by_cases heq : id = ctlid
    · subst heq
      simp [hleft]
    · rw [hothers id heq, h.master]
      simp [heq]

/-- What changes no one into a master or from one, is none of the arbiter's
business. -/
theorem Agree.same {s : Roles} (h : s.Agree) {b : Crofbase}
    (hdefined : b.generationIsDefined = s.base.generationIsDefined)
    (hcached : b.cachedGenerationId = s.base.cachedGenerationId)
    (hroles : ∀ id, b.role id = some .master ↔ s.base.role id = some .master) : Agree ⟨b, s.arbiter⟩ := by
  refine ⟨?_, fun id => ?_⟩
  · simp only [hdefined, hcached]
    exact h.generation
  · rw [hroles, h.master]

theorem Agree.step {s s' : Roles} {a : Act} (h : s.Agree) (hok : s.Ok a) (hstep : s.step a = some s') : s'.Agree := by
  obtain ⟨b, hb, rfl⟩ := Option.map_eq_some_iff.mp hstep
  cases a with
  | addCtl =>
    obtain rfl := Option.some.inj hb
    refine h.same rfl rfl fun id => ?_
    have hfree : s.base.role s.base.rofctls.firstFree = none := by
      simp [Crofbase.role, Omap.find?_firstFree]
    have hadd := Crofbase.role_addCtlAs s.base s.base.rofctls.firstFree id
    rw [Crofbase.addCtl, ← Crofbase.addCtlAs, hadd]
    split
    next heq => simp [heq, hfree]
    next => rfl
  | addCtlAs ctlid =>
    obtain rfl := Option.some.inj hb
    exact h.leave rfl rfl (by simp) fun id hne => by simp [hne]
  | setCtl ctlid =>
    obtain rfl := Option.some.inj hb
    refine h.same ?_ ?_ fun id => ?_
    · unfold Crofbase.setCtl
      split <;> rfl
    · unfold Crofbase.setCtl
      split <;> rfl
    · unfold Crofbase.setCtl
      split
      next hnone =>
        have hadd := Crofbase.role_addCtlAs s.base ctlid id
        rw [← Crofbase.addCtlAs, hadd]
        split
        next heq => simp [heq, Crofbase.role, hnone]
        next => rfl
      next => rfl
  | dropCtl ctlid =>
    obtain rfl := Option.some.inj hb
    exact h.leave rfl rfl (by simp) fun id hne => by simp [hne]
  | dropCtls =>
    obtain rfl := Option.some.inj hb
    exact ⟨h.generation, fun id => by simp [arbitrate]⟩
  | established ctlid ofpVersion =>
    simp only [Crofbase.step] at hb
    split_ifs at hb with hversion
    obtain rfl := Option.some.inj hb
    have hrole := fun id => Crofbase.role_handleEstablished s.base ctlid id hversion
    exact h.leave rfl rfl (by simp [hrole]) fun id hne => by simp [hrole, hne]
  | closed ctlid =>
    simp only [Crofbase.step] at hb
    split_ifs at hb with hversion
    obtain rfl := Option.some.inj hb
    have hrole := fun id => Crofbase.role_handleClosed id hversion
    exact h.leave rfl rfl (by simp [hrole]) fun id hne => by simp [hrole, hne]
  | setAsync ctlid asyncConfig =>
    obtain rfl := Option.some.inj hb
    exact h.same rfl rfl fun id => by rw [Crofbase.role_setAsyncConfig]
  | roleRequest ctlid role g =>
    obtain rfl := Option.some.inj hb
    exact h.roleRequest hok

/-! ## What holds of a step -/

/-- A step that is no request leaves the generation alone. -/
theorem generation_step {s s' : Roles} {a : Act} (hnot : ∀ id role g, a ≠ .roleRequest id role g)
    (hstep : s.step a = some s') : s'.base.generationIsDefined = s.base.generationIsDefined ∧
      s'.base.cachedGenerationId = s.base.cachedGenerationId := by
  obtain ⟨b, hb, rfl⟩ := Option.map_eq_some_iff.mp hstep
  cases a with
  | roleRequest id role g => exact absurd rfl (hnot id role g)
  | setCtl ctlid =>
    obtain rfl := Option.some.inj hb
    simp only [Crofbase.setCtl]
    split <;> exact ⟨rfl, rfl⟩
  | established | closed =>
    simp only [Crofbase.step] at hb
    split_ifs at hb
    obtain rfl := Option.some.inj hb
    exact ⟨rfl, rfl⟩
  | addCtl | addCtlAs | dropCtl | dropCtls | setAsync =>
    obtain rfl := Option.some.inj hb
    exact ⟨rfl, rfl⟩

theorem forward_step {s s' : Roles} {a : Act} (hstep : s.step a = some s')
    (h : s.base.generationIsDefined = true) : s'.base.generationIsDefined = true ∧
      0 ≤ Cofrole.distance s'.base.cachedGenerationId s.base.cachedGenerationId := by
  by_cases hrequest : ∃ id role g, a = .roleRequest id role g
  · obtain ⟨id, role, g, rfl⟩ := hrequest
    obtain rfl := Option.some.inj hstep
    obtain ⟨e, hsame⟩ | ⟨r, -, -, hsame | ⟨hahead, hset⟩⟩ := s.base.handleRoleRequest_cases id role g
    · simp [hsame, h]
    · simp [hsame, h]
    · have hle : 0 ≤ Cofrole.distance g s.base.cachedGenerationId := by
        by_contra hlt
        exact hahead ⟨h, by omega⟩
      simpa [hset] using hle
  · obtain ⟨hdefined, hcached⟩ := generation_step (fun id role g heq => hrequest ⟨id, role, g, heq⟩) hstep
    simp [hdefined, hcached, h]

theorem Agree.exact {s s' : Roles} {a : Act} (h : s.Agree) (hok : s.Ok a) (hstep : s.step a = some s') :
    Exact s a s' := by
  have h' := h.step hok hstep
  refine {
    oneMaster := fun i j hi hj => ?_
    master := h'.master
    forward := forward_step hstep
    answers := fun id role g _ hrole => ?_
    cached := fun id role g heq hrole => ?_
    stale := fun id role g heq hstale => ?_ }
  · rw [h'.master] at hi hj
    exact Option.some.inj (hi.symm.trans hj)
  · rw [roleRequestRcvd_eq_stale, h'.takes_iff, not_not]
    exact and_iff_left hrole
  · subst heq
    obtain rfl := Option.some.inj hstep
    obtain ⟨e, hsame⟩ | ⟨r, -, hattached, hsame | ⟨hahead, hset⟩⟩ := s.base.handleRoleRequest_cases id role g
    · rw [hsame]
    · rw [hsame, Crofbase.cachedGenerationId_grant]
    · obtain ⟨hdefined, hg⟩ := hok hattached hrole
      rw [hset, Crofbase.cachedGenerationId_grant]
      exact hg.resolve_left fun hlt => hahead ⟨hdefined, hlt⟩
  · subst heq
    obtain rfl := Option.some.inj hstep
    simp only [Crofbase.handleRoleRequest] at hstale ⊢
    split at hstale
    next => cases hstale
    next r hrole =>
      split at hstale
      next => cases hstale
      next ctl hctl => exact roleRequestRcvd_of_stale hstale

/-- Once a generation id is cached, the one before it is turned down. -/
theorem Exact.ok {s s' : Roles} {a : Act} (h : s.Agree) (hstep : s.step a = some s') (hx : Exact s a s') :
    s.Ok a := by
  cases a with
  | roleRequest ctlid role g =>
    intro hattached hrole
    have hcached := hx.cached ctlid role g rfl hrole
    have hanswers := hx.answers ctlid .master (s'.base.cachedGenerationId - 1)
    obtain rfl := Option.some.inj hstep
    obtain ⟨ctl, hctl⟩ := Option.isSome_iff_exists.mp hattached
    have harbiter : (s.request ctlid role g).generation = s.arbiter.generation := by
      obtain hrole | hrole := hrole <;> simp [request, hctl, hrole, Arbiter.request, Arbiter.leave]
    by_cases hbehind : s.base.generationIsDefined = true ∧ Cofrole.distance g s.base.cachedGenerationId < 0
    · exact ⟨hbehind.1, .inl hbehind.2⟩
    · have hset : (s.base.handleRoleRequest ctlid role g).1 = { s.base with
          cachedGenerationId := g, generationIsDefined := true }.grant ctlid
            ((Ofpcr.ofNumber role).getD .noChange) := by
        obtain hrole | hrole := hrole <;>
          simp [Crofbase.handleRoleRequest, hrole, hctl, Crofbase.roleRequestRcvd, hbehind]
      simp only [hset, Crofbase.cachedGenerationId_grant] at hcached hanswers
      refine ⟨?_, .inr hcached⟩
      by_contra hundefined
      have htakes : ¬ (request s ctlid role g).Takes (g - 1) := by
        refine (hanswers ?_ (.inl trivial)).mp (roleRequestRcvd_eq_stale.mpr ⟨⟨?_, ?_⟩, .inl rfl⟩)
        · have hsome := Crofbase.isSome_grant { s.base with cachedGenerationId := g, generationIsDefined := true }
            ctlid ctlid ((Ofpcr.ofNumber role).getD .noChange)
          rw [hsome]
          exact hattached
        · simp
        · rw [Crofbase.cachedGenerationId_grant, Cofrole.distance_pred]
          decide
      refine htakes fun g' hg' => ?_
      rw [harbiter, h.generation, if_neg hundefined] at hg'
      cases hg'
  | addCtl | addCtlAs | setCtl | dropCtl | dropCtls | established | closed | setAsync => trivial

/-- **There is one master at most, the arbiter's, and the generation goes forward
by MASTER and SLAVE requests alone, along a run, exactly when every EQUAL or
NOCHANGE request is behind the cached generation id or has it itself.** -/
theorem exact_iff_meets_requests {s : Roles} {as : List Act} (h : Runs.run step new as = some s) :
    Runs.Along step Exact new as ↔ Runs.Meets step Ok new as := by
  have keep : ∀ s a s', Agree s → s.Ok a → s.step a = some s' → Agree s' :=
    fun s a s' hs hok hstep => hs.step hok hstep
  constructor
  · intro hQ
    exact Runs.meets_of_along keep (fun s a s' hs hstep hx => hx.ok hs hstep) agree_new h hQ
  · intro hok
    exact Runs.along_of_meets keep (fun s a s' hs hok hstep => hs.exact hok hstep) agree_new hok

theorem exact_iff_meets_requests_takeover : ∃ s,
    Runs.run step new [.addCtl, .addCtl, .roleRequest 0 2 5, .roleRequest 1 2 6, .roleRequest 0 0 6] = some s ∧
      s.base.role 0 = some .slave ∧ s.base.role 1 = some .master ∧
      Runs.Along step Exact new
        [.addCtl, .addCtl, .roleRequest 0 2 5, .roleRequest 1 2 6, .roleRequest 0 0 6] :=
  ⟨_, rfl, by decide +kernel, by decide +kernel, (exact_iff_meets_requests rfl).mpr (by decide +kernel)⟩

/-- An EQUAL request caches its generation id, and the master's next request is
stale. -/
theorem equal_request_cached : ∃ s t, Runs.run step new [.addCtl, .addCtl, .roleRequest 0 2 5] = some s ∧
    s.step (.roleRequest 1 1 100) = some t ∧ s.base.cachedGenerationId = 5 ∧ t.base.cachedGenerationId = 100 ∧
    t.arbiter.Takes 6 ∧ (t.base.handleRoleRequest 0 2 6).2 = some .stale ∧
    ¬ Exact s (.roleRequest 1 1 100) t := by
  refine ⟨_, _, rfl, rfl, by decide +kernel, by decide +kernel, by decide +kernel, by decide +kernel, fun hx => ?_⟩
  have hcached := hx.cached 1 1 100 rfl (.inl rfl)
  exact absurd hcached (by decide +kernel)

end Roles

end RoflCommon
