/-
A copy of a map, kept by messages.

The owner of a map tells every change of it, key by key, and from time to time the map as a
whole. The messages wait in queues, those of a kind in one queue, and each queue hands over
its messages in order. The holder of the copy may write to it as well.

Where both kinds share a queue the copy is only ever behind: what waits brings it up to
date (`Inv.same`). Where they do not, a whole map may come late, behind a change that was
told after it, and undo that change for good; `exact_iff` says when a copy that has heard
everything is right. `basis` and `shot` record where the entries of the copy come from.
-/
import Mathlib.Logic.Function.Basic
import Mathlib.Tactic.Common

/-- A change under one key, or a whole map. -/
inductive Update (κ α : Type*)
  | put (k : κ) (v : Option α)
  | all (f : κ → Option α)

namespace Update

variable {κ α : Type*} [DecidableEq κ]

/-- What stands under `k` afterwards, where `v` stood before. -/
def under (k : κ) (v : Option α) : Update κ α → Option α
  | .put k' w => if k' = k then w else v
  | .all f => f k

/-- The update tells what stands under `k`. -/
def Concerns (k : κ) : Update κ α → Prop
  | .put k' _ => k' = k
  | .all _ => True

/-- One update after the other. -/
def follow (k : κ) (us : List (Update κ α)) (v : Option α) : Option α := us.foldl (fun v u => u.under k v) v

@[simp] theorem follow_nil (k : κ) (v : Option α) : follow k [] v = v := rfl

@[simp] theorem follow_cons (k : κ) (u : Update κ α) (us : List (Update κ α)) (v : Option α) :
    follow k (u :: us) v = follow k us (u.under k v) := rfl

theorem follow_append (k : κ) (us us' : List (Update κ α)) (v : Option α) :
    follow k (us ++ us') v = follow k us' (follow k us v) := List.foldl_append

theorem under_of_concerns {k : κ} {u : Update κ α} (h : u.Concerns k) (v w : Option α) : u.under k v = u.under k w := by
  cases u with
  | put k' x => simp [under, show k' = k from h]
  | all f => rfl

theorem under_of_not_concerns {k : κ} {u : Update κ α} (h : ¬ u.Concerns k) (v : Option α) : u.under k v = v := by
  cases u with
  | put k' x => simp [under, show k' ≠ k from h]
  | all f => exact absurd trivial h

/-- Updates that concern a key leave nothing of what was there. -/
theorem follow_eq {k : κ} {us : List (Update κ α)} (h : ∃ u ∈ us, u.Concerns k) (v w : Option α) :
    follow k us v = follow k us w := by
  induction us generalizing v w with
  | nil =>
    obtain ⟨u, hu, -⟩ := h
    cases hu
  | cons u us ih =>
    rw [follow_cons, follow_cons]
    by_cases hu : u.Concerns k
    · rw [under_of_concerns hu v w]
    · obtain ⟨u', hu', hconcerns⟩ := h
      rcases List.mem_cons.mp hu' with rfl | hmem
      · exact absurd hconcerns hu
      · exact ih ⟨u', hmem, hconcerns⟩ _ _

end Update

open Update

/-- Where an entry of the copy comes from: from the start, from a change that was told, from
a whole map, or from the holder of the copy. -/
inductive Basis
  | start | put | all | own
deriving DecidableEq, Repr

/-- `queues` holds what is under way by the queue it is in. -/
@[ext]
structure Mirror (κ α γ : Type*) where
  source : κ → Option α
  queues : γ → List (Update κ α)
  copy : κ → Option α
  basis : κ → Basis
  /-- The last whole map handed over. -/
  shot : κ → Option α

namespace Mirror

variable {κ α γ : Type*} [DecidableEq κ] [DecidableEq γ]

/-- A change and the telling of it; the map told as a whole; a message handed over; a change
of the copy alone. -/
inductive Act (κ α γ : Type*)
  | put (k : κ) (v : Option α)
  | all
  | deliver (c : γ)
  | own (k : κ) (v : Option α)

/-- The copy takes an update. -/
def take (m : Mirror κ α γ) (u : Update κ α) : Mirror κ α γ :=
  let copy := fun k => u.under k (m.copy k)
  match u with
  | .put k _ => { m with copy := copy, basis := Function.update m.basis k .put }
  | .all f => { m with copy := copy, basis := fun _ => .all, shot := f }

/-- Changes are put into the queue `a`, whole maps into the queue `b`. -/
def step (a b : γ) (m : Mirror κ α γ) : Act κ α γ → Option (Mirror κ α γ)
  | .put k v => some { m with
      source := Function.update m.source k v
      queues := Function.update m.queues a (m.queues a ++ [.put k v]) }
  | .all => some { m with queues := Function.update m.queues b (m.queues b ++ [.all m.source]) }
  | .deliver c =>
    match m.queues c with
    | [] => none
    | u :: us => some ({ m with queues := Function.update m.queues c us }.take u)
  | .own k v => some { m with copy := Function.update m.copy k v, basis := Function.update m.basis k .own }

def new (source copy : κ → Option α) : Mirror κ α γ := ⟨source, fun _ => [], copy, fun _ => .start, source⟩

/-- What the queues hold, and what it makes of the copy. -/
structure Inv (a b : γ) (m : Mirror κ α γ) : Prop where
  kinds : ∀ c, ∀ u ∈ m.queues c, (∃ k v, u = .put k v) ∧ c = a ∨ (∃ f, u = .all f) ∧ c = b
  pending : ∀ k, (∃ u ∈ m.queues a, u.Concerns k) → ∀ v, follow k (m.queues a) v = m.source k
  put : ∀ k, m.basis k = .put → follow k (m.queues a) (m.copy k) = m.source k
  all : ∀ k, m.basis k = .all → m.copy k = m.shot k
  same : a = b → ∀ k, m.basis k = .all → follow k (m.queues a) (m.copy k) = m.source k

variable {a b : γ} {m m' : Mirror κ α γ}

omit [DecidableEq γ] in
theorem inv_new (source copy : κ → Option α) : Inv a b (new source copy) where
  kinds := fun _ u hu => by cases hu
  pending := fun k h => by
    obtain ⟨u, hu, -⟩ := h
    cases hu
  put := fun k h => by cases h
  all := fun k h => by cases h
  same := fun _ k h => by cases h

/-- What is told last is what stands there. -/
theorem follow_concat {k : κ} {us : List (Update κ α)} {u : Update κ α} {s : κ → Option α} {v : Option α}
    (hconcerns : u.Concerns k → ∀ w, u.under k w = s k) (h : ¬ u.Concerns k → follow k us v = s k) :
    follow k (us ++ [u]) v = s k := by
  rw [follow_append, follow_cons, follow_nil]
  by_cases hu : u.Concerns k
  · exact hconcerns hu _
  · rw [under_of_not_concerns hu, h hu]

theorem Inv.step_put (h : Inv a b m) (k : κ) (v : Option α) : Inv a b { m with
    source := Function.update m.source k v
    queues := Function.update m.queues a (m.queues a ++ [.put k v]) } := by
  have hlast : ∀ k', (Update.put k v).Concerns k' → ∀ w : Option α,
      (Update.put k v).under k' w = Function.update m.source k v k' := by
    intro k' hk w
    obtain rfl : k = k' := hk
    simp [under]
  have hsource : ∀ k', ¬ (Update.put k v).Concerns k' → Function.update m.source k v k' = m.source k' :=
    fun k' hk => Function.update_of_ne (fun heq => hk heq.symm) _ _
  have hqueue : (Function.update m.queues a (m.queues a ++ [.put k v])) a = m.queues a ++ [.put k v] :=
    Function.update_self _ _ _
  refine ⟨fun c u hu => ?_, fun k' hk' w => ?_, fun k' hk' => ?_, h.all, fun hab k' hk' => ?_⟩
  · by_cases hc : c = a
    · subst hc
      dsimp only at hu
      rw [hqueue] at hu
      rcases List.mem_append.mp hu with hu | hu
      · exact h.kinds c u hu
      · exact .inl ⟨⟨k, v, List.mem_singleton.mp hu⟩, rfl⟩
    · exact h.kinds c u (by simpa [Function.update_of_ne hc] using hu)
  · dsimp only at hk' ⊢
    rw [hqueue] at hk' ⊢
    refine follow_concat (hlast k') fun hnot => ?_
    obtain ⟨u, hu, hconcerns⟩ := hk'
    rcases List.mem_append.mp hu with hu | hu
    · rw [hsource k' hnot]
      exact h.pending k' ⟨u, hu, hconcerns⟩ w
    · rw [List.mem_singleton.mp hu] at hconcerns
      exact absurd hconcerns hnot
  · dsimp only at hk' ⊢
    rw [hqueue]
    exact follow_concat (hlast k') fun hnot => by rw [hsource k' hnot, h.put k' hk']
  · dsimp only at hk' ⊢
    rw [hqueue]
    exact follow_concat (hlast k') fun hnot => by rw [hsource k' hnot, h.same hab k' hk']

theorem Inv.step_all (h : Inv a b m) : Inv a b { m with
    queues := Function.update m.queues b (m.queues b ++ [.all m.source]) } := by
  have hkinds : ∀ c, ∀ u ∈ (Function.update m.queues b (m.queues b ++ [.all m.source])) c,
      (∃ k v, u = .put k v) ∧ c = a ∨ (∃ f, u = .all f) ∧ c = b := by
    intro c u hu
    by_cases hc : c = b
    · subst hc
      rw [Function.update_self] at hu
      rcases List.mem_append.mp hu with hu | hu
      · exact h.kinds c u hu
      · exact .inr ⟨⟨m.source, List.mem_singleton.mp hu⟩, rfl⟩
    · rw [Function.update_of_ne hc] at hu
      exact h.kinds c u hu
  by_cases hab : a = b
  · subst hab
    have hqueue : (Function.update m.queues a (m.queues a ++ [.all m.source])) a = m.queues a ++ [.all m.source] :=
      Function.update_self _ _ _
    have hend : ∀ k w, follow k (m.queues a ++ [.all m.source]) w = m.source k := fun k w =>
      follow_concat (fun _ _ => rfl) fun hnot => absurd trivial hnot
    refine ⟨hkinds, fun k _ w => ?_, fun k _ => ?_, h.all, fun _ k _ => ?_⟩
    all_goals
      dsimp only
      rw [hqueue]
      exact hend k _
  · have hqueue : (Function.update m.queues b (m.queues b ++ [.all m.source])) a = m.queues a :=
      Function.update_of_ne hab _ _
    refine ⟨hkinds, fun k hk w => ?_, fun k hk => ?_, h.all, fun heq => absurd heq hab⟩
    · dsimp only at hk ⊢
      rw [hqueue] at hk ⊢
      exact h.pending k hk w
    · dsimp only at hk ⊢
      rw [hqueue]
      exact h.put k hk

omit [DecidableEq γ] in
/-- What is left in a queue tells the same. -/
theorem Inv.pending_tail (h : Inv a b m) {u : Update κ α} {us : List (Update κ α)} (hqueue : m.queues a = u :: us)
    {k : κ} (hk : ∃ u' ∈ us, u'.Concerns k) (v : Option α) : follow k us v = m.source k := by
  obtain ⟨u', hu', hconcerns⟩ := hk
  have hall := h.pending k ⟨u', by rw [hqueue]; exact List.mem_cons_of_mem u hu', hconcerns⟩ v
  rw [hqueue, follow_cons] at hall
  rw [follow_eq ⟨u', hu', hconcerns⟩ v (u.under k v), hall]

omit [DecidableEq γ] in
/-- The first of a queue, taken by the copy. -/
theorem Inv.head (h : Inv a b m) {u : Update κ α} {us : List (Update κ α)} (hqueue : m.queues a = u :: us) {k : κ}
    (hk : u.Concerns k) : follow k us (u.under k (m.copy k)) = m.source k := by
  have hall := h.pending k ⟨u, by rw [hqueue]; exact List.mem_cons_self, hk⟩ (m.copy k)
  rwa [hqueue, follow_cons] at hall

theorem Inv.kinds_deliver (h : Inv a b m) {c : γ} {u : Update κ α} {us : List (Update κ α)}
    (hqueue : m.queues c = u :: us) (c' : γ) (u' : Update κ α) (hu' : u' ∈ (Function.update m.queues c us) c') :
    (∃ k v, u' = .put k v) ∧ c' = a ∨ (∃ f, u' = .all f) ∧ c' = b := by
  by_cases hc : c' = c
  · subst hc
    rw [Function.update_self] at hu'
    exact h.kinds c' u' (by rw [hqueue]; exact List.mem_cons_of_mem u hu')
  · rw [Function.update_of_ne hc] at hu'
    exact h.kinds c' u' hu'

/-- A change is handed over. -/
theorem Inv.deliver_put (h : Inv a b m) {k : κ} {v : Option α} {us : List (Update κ α)}
    (hqueue : m.queues a = .put k v :: us) :
    Inv a b ({ m with queues := Function.update m.queues a us }.take (.put k v)) := by
  have hrest : (Function.update m.queues a us) a = us := Function.update_self _ _ _
  have hbefore : ∀ k', k' ≠ k → ∀ w, follow k' (m.queues a) w = follow k' us w := by
    intro k' hne w
    rw [hqueue, follow_cons]
    simp [under, Ne.symm hne]
  have hcopy : ∀ k', k' ≠ k → (Update.put k v).under k' (m.copy k') = m.copy k' := fun k' hne => by
    simp [under, Ne.symm hne]
  refine ⟨h.kinds_deliver hqueue, fun k' hk' w => ?_, fun k' hk' => ?_, fun k' hk' => ?_, fun hab k' hk' => ?_⟩
  · dsimp only [take] at hk' ⊢
    rw [hrest] at hk' ⊢
    exact h.pending_tail hqueue hk' w
  all_goals
    dsimp only [take] at hk' ⊢
    by_cases hkk : k' = k
  · subst hkk
    rw [hrest]
    exact h.head hqueue rfl
  · rw [Function.update_of_ne hkk] at hk'
    rw [hrest, hcopy k' hkk, ← hbefore k' hkk, h.put k' hk']
  · subst hkk
    rw [Function.update_self] at hk'
    cases hk'
  · rw [Function.update_of_ne hkk] at hk'
    rw [hcopy k' hkk, h.all k' hk']
  · subst hkk
    rw [Function.update_self] at hk'
    cases hk'
  · rw [Function.update_of_ne hkk] at hk'
    rw [hrest, hcopy k' hkk, ← hbefore k' hkk, h.same hab k' hk']

/-- A whole map is handed over. -/
theorem Inv.deliver_all (h : Inv a b m) {f : κ → Option α} {us : List (Update κ α)}
    (hqueue : m.queues b = .all f :: us) :
    Inv a b ({ m with queues := Function.update m.queues b us }.take (.all f)) := by
  refine ⟨h.kinds_deliver hqueue, fun k hk w => ?_, fun k hk => ?_, fun _ _ => rfl, fun hab k _ => ?_⟩
  · dsimp only [take] at hk ⊢
    by_cases hab : a = b
    · subst hab
      rw [Function.update_self] at hk ⊢
      exact h.pending_tail hqueue hk w
    · rw [Function.update_of_ne hab] at hk ⊢
      exact h.pending k hk w
  · cases hk
  · subst hab
    dsimp only [take]
    rw [Function.update_self]
    exact h.head hqueue trivial

omit [DecidableEq γ] in
theorem Inv.step_own (h : Inv a b m) (k : κ) (v : Option α) : Inv a b { m with
    copy := Function.update m.copy k v, basis := Function.update m.basis k .own } := by
  have hne : ∀ {k' : κ} {s : Basis}, s ≠ .own → Function.update m.basis k .own k' = s → k' ≠ k ∧ m.basis k' = s := by
    intro k' s hs hk'
    by_cases hkk : k' = k
    · subst hkk
      rw [Function.update_self] at hk'
      exact absurd hk'.symm hs
    · rw [Function.update_of_ne hkk] at hk'
      exact ⟨hkk, hk'⟩
  refine ⟨h.kinds, h.pending, fun k' hk' => ?_, fun k' hk' => ?_, fun hab k' hk' => ?_⟩
  all_goals
    obtain ⟨hkk, hbasis⟩ := hne (by decide) hk'
    dsimp only
    rw [Function.update_of_ne hkk]
  · exact h.put k' hbasis
  · exact h.all k' hbasis
  · exact h.same hab k' hbasis

theorem Inv.step {act : Act κ α γ} (h : Inv a b m) (hstep : m.step a b act = some m') : Inv a b m' := by
  cases act with
  | put k v =>
    obtain rfl := Option.some.inj hstep
    exact h.step_put k v
  | all =>
    obtain rfl := Option.some.inj hstep
    exact h.step_all
  | own k v =>
    obtain rfl := Option.some.inj hstep
    exact h.step_own k v
  | deliver c =>
    simp only [Mirror.step] at hstep
    cases hqueue : m.queues c with
    | nil =>
      rw [hqueue] at hstep
      cases hstep
    | cons u us =>
      rw [hqueue] at hstep
      obtain rfl := Option.some.inj hstep
      rcases h.kinds c u (by rw [hqueue]; exact List.mem_cons_self) with ⟨⟨k, v, rfl⟩, rfl⟩ | ⟨⟨f, rfl⟩, rfl⟩
      · exact h.deliver_put hqueue
      · exact h.deliver_all hqueue

omit [DecidableEq γ] in
/-- **When a copy that has heard everything is right**: under a key that was told last by a
change it is; under one that was told last by a whole map it is if that map has been right
to this day. -/
theorem Inv.exact_iff (h : Inv a b m) (hempty : ∀ c, m.queues c = []) {k : κ}
    (hbasis : m.basis k = .put ∨ m.basis k = .all) :
    m.copy k = m.source k ↔ (m.basis k = .all → m.shot k = m.source k) := by
  rcases hbasis with hput | hall
  · have hexact := h.put k hput
    rw [hempty a, follow_nil] at hexact
    rw [hput]
    exact ⟨fun _ hall => (by cases hall), fun _ => hexact⟩
  · rw [h.all k hall]
    exact ⟨fun hshot _ => hshot, fun hshot => hshot hall⟩

end Mirror
