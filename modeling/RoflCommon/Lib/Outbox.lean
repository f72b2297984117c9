/-
An outbox: elements wait in one first-in first-out queue for each class, are
loaded one at a time, in whatever order the queues are served, and leave as
symbols, any number at a time. An element is loaded only when nothing of the
one before is left, so that what has left is always the start of a sequence
of whole elements (`Sent`); and that sequence agrees with what was stored
class by class, as long as no element is discarded (`Inv.integrity`).
-/
import RoflCommon.Lib.Classes
import RoflCommon.Lib.Runs
import Mathlib.Logic.Function.Basic

/-- `stored` is what has been put into the queues, `loaded` what has been
taken out of them, `written` what has left. -/
structure Outbox (α β κ : Type*) where
  queues : κ → List α
  current : List β
  stored : List α
  loaded : List α
  written : List β

namespace Outbox

open Classes

variable {α β κ : Type*} [DecidableEq κ]

inductive Op (α κ : Type*)
  | store (a : α)
  | load (k : κ)
  | discard (k : κ)
  | write (n : Nat)

variable (c : α → κ) (code : α → List β)

def step (o : Outbox α β κ) : Op α κ → Option (Outbox α β κ)
  | .store a => some { o with
      queues := Function.update o.queues (c a) (o.queues (c a) ++ [a])
      stored := o.stored ++ [a] }
  | .load k =>
    match o.current, o.queues k with
    | [], a :: rest => some { o with
        queues := Function.update o.queues k rest
        current := code a
        loaded := o.loaded ++ [a] }
    | _, _ => none
  | .discard k =>
    match o.queues k with
    | _ :: rest => some { o with queues := Function.update o.queues k rest }
    | [] => none
  | .write n => some { o with current := o.current.drop n, written := o.written ++ o.current.take n }

/-- Every element is in the queue of its class; each queue continues what was
loaded of its class; what has left and what is left of the current element
are the elements loaded. -/
structure Inv (o : Outbox α β κ) : Prop where
  classes : ∀ k, ∀ a ∈ o.queues k, c a = k
  order : ∀ k, ofClass c k o.loaded ++ o.queues k = ofClass c k o.stored
  stream : o.written ++ o.current = o.loaded.flatMap code

variable {c code} {o o' : Outbox α β κ}

theorem Inv.step {op : Op α κ} (h : Inv c code o) (hop : ∀ k, op ≠ .discard k)
    (hs : step c code o op = some o') : Inv c code o' := by
  cases op with
  | store a =>
    obtain rfl := Option.some.inj hs
    refine ⟨fun k b hb => ?_, fun k => ?_, h.stream⟩
    · by_cases hk : k = c a
      · subst hk
        simp only [Function.update_self, List.mem_append, List.mem_singleton] at hb
        rcases hb with hb | rfl
        · exact h.classes _ b hb
        · rfl
      · simp only [Function.update_of_ne hk] at hb
        exact h.classes k b hb
    · by_cases hk : k = c a
      · subst hk
        simp only [Function.update_self, ofClass_append]
        rw [← List.append_assoc, h.order, ofClass_of_forall (l := [a]) (by simp)]
      · simp only [Function.update_of_ne hk, ofClass_append]
        rw [h.order, ofClass_of_forall_ne (l := [a]) (by simpa using fun h' => hk h'.symm), List.append_nil]
  | load k =>
    simp only [Outbox.step] at hs
    split at hs
    next a rest hcur hq =>
      obtain rfl := Option.some.inj hs
      have hstream := h.stream
      have ha : c a = k := h.classes k a (by simp [hq])
      refine ⟨fun j b hb => ?_, fun j => ?_, ?_⟩
      · by_cases hj : j = k
        · subst hj
          simp only [Function.update_self] at hb
          exact h.classes _ b (by simp [hq, hb])
        · simp only [Function.update_of_ne hj] at hb
          exact h.classes j b hb
      · by_cases hj : j = k
        · subst hj
          have horder := h.order j
          rw [hq] at horder
          simp only [Function.update_self, ofClass_append]
          rw [ofClass_of_forall (l := [a]) (by simpa using ha), ← horder, List.append_assoc]
          rfl
        · simp only [Function.update_of_ne hj, ofClass_append]
          rw [ofClass_of_forall_ne (l := [a]) (by simpa [ha] using fun h' => hj h'.symm), List.append_nil]
          exact h.order j
      · rw [hcur, List.append_nil] at hstream
        simp [hstream]
    · cases hs
  | discard k => exact absurd rfl (hop k)
  | write n =>
    obtain rfl := Option.some.inj hs
    refine ⟨h.classes, h.order, ?_⟩
    simp only [List.append_assoc, List.take_append_drop]
    exact h.stream

/-- What has been loaded has been stored. -/
theorem Inv.mem_stored (h : Inv c code o) {a : α} (ha : a ∈ o.loaded) : a ∈ o.stored := by
  have hclass : a ∈ ofClass c (c a) o.stored := by
    rw [← h.order]
    exact List.mem_append_left _ (List.mem_filter.mpr ⟨ha, decide_eq_true rfl⟩)
  exact (List.mem_filter.mp hclass).1

/-- What has been loaded is a start of what has been stored, in every class. -/
theorem Inv.behind (h : Inv c code o) : Behind c o.loaded o.stored := fun k => h.order k ▸ List.prefix_append _ _

/-- Nothing has happened yet. -/
theorem Inv.empty {o : Outbox α β κ} (hq : ∀ k, o.queues k = []) (hc : o.current = [])
    (hl : o.stored = [] ∧ o.loaded = [] ∧ o.written = []) : Inv c code o where
  classes k a ha := by simp [hq k] at ha
  order k := by simp [hq k, hl]
  stream := by simp [hc, hl]

/-- The queues one after the other, over distinct classes. -/
theorem ofClass_flatMap {q : κ → List α} (hq : ∀ k, ∀ a ∈ q k, c a = k) {ks : List κ} (hks : ks.Nodup)
    (k : κ) : ofClass c k (ks.flatMap q) = if k ∈ ks then q k else [] := by
  induction ks with
  | nil => rfl
  | cons j ks ih =>
    obtain ⟨hj, hks⟩ := List.nodup_cons.mp hks
    rw [List.flatMap_cons, ofClass_append, ih hks]
    by_cases hk : k = j
    · subst hk
      rw [ofClass_of_forall (hq k), if_neg hj, if_pos (by simp), List.append_nil]
    · rw [ofClass_of_forall_ne fun a ha h => hk (h.symm.trans (hq j a ha))]
      simp [hk]

/-- **Integrity**: what has left is the start of whole elements one after the
other, these are the elements stored, and in every class they are in the
order in which they were stored. -/
theorem Inv.integrity (h : Inv c code o) {ks : List κ} (hks : ks.Nodup) (hall : ∀ k, k ∈ ks) :
    ∃ l, o.written <+: l.flatMap code ∧ Agree c l o.stored := by
  refine ⟨o.loaded ++ ks.flatMap o.queues, ?_, fun k => ?_⟩
  · rw [List.flatMap_append, ← h.stream, List.append_assoc]
    exact List.prefix_append _ _
  · rw [ofClass_append, ofClass_flatMap h.classes hks, if_pos (hall k), h.order]

/-! ## With elements discarded -/

/-- What has left comes from whole elements one after the other, and these,
like the elements waiting, all have `P`. -/
structure Sent (code : α → List β) (P : α → Prop) (o : Outbox α β κ) : Prop where
  queues : ∀ k, ∀ a ∈ o.queues k, P a
  loaded : ∀ a ∈ o.loaded, P a
  stream : o.written ++ o.current = o.loaded.flatMap code

variable {P P' : α → Prop}

omit [DecidableEq κ] in
theorem Sent.mono (h : Sent code P o) (hP : ∀ a, P a → P' a) : Sent code P' o :=
  ⟨fun k a ha => hP a (h.queues k a ha), fun a ha => hP a (h.loaded a ha), h.stream⟩

theorem Sent.step {op : Op α κ} (h : Sent code P o) (hop : ∀ a, op = .store a → P a)
    (hs : Outbox.step c code o op = some o') : Sent code P o' := by
  have update : ∀ k l, (∀ a ∈ l, P a) → ∀ j, ∀ a ∈ Function.update o.queues k l j, P a := by
    intro k l hl j a ha
    by_cases hj : j = k
    · subst hj
      rw [Function.update_self] at ha
      exact hl a ha
    · rw [Function.update_of_ne hj] at ha
      exact h.queues j a ha
  cases op with
  | store a =>
    obtain rfl := Option.some.inj hs
    refine ⟨update _ _ fun b hb => ?_, h.loaded, h.stream⟩
    rcases List.mem_append.mp hb with hb | hb
    · exact h.queues _ b hb
    · exact hop b (by rw [List.mem_singleton.mp hb])
  | load k =>
    simp only [Outbox.step] at hs
    split at hs
    next a rest hcur hq =>
      obtain rfl := Option.some.inj hs
      have hk : ∀ b ∈ a :: rest, P b := fun b hb => h.queues k b (hq ▸ hb)
      have hstream := h.stream
      refine ⟨update k rest fun b hb => hk b (by simp [hb]), fun b hb => ?_, ?_⟩
      · rcases List.mem_append.mp hb with hb | hb
        · exact h.loaded b hb
        · exact hk b (by simp [List.mem_singleton.mp hb])
      · rw [hcur, List.append_nil] at hstream
        simp [hstream]
    · cases hs
  | discard k =>
    simp only [Outbox.step] at hs
    split at hs
    next a rest hq =>
      obtain rfl := Option.some.inj hs
      exact ⟨update k rest fun b hb => h.queues k b (by simp [hq, hb]), h.loaded, h.stream⟩
    · cases hs
  | write n =>
    obtain rfl := Option.some.inj hs
    refine ⟨h.queues, h.loaded, ?_⟩
    simp only [List.append_assoc, List.take_append_drop]
    exact h.stream

omit [DecidableEq κ] in
/-- What has left is the start of whole elements that have `P`. -/
theorem Sent.isPrefix (h : Sent code P o) : ∃ l : List α, (∀ a ∈ l, P a) ∧ o.written <+: l.flatMap code :=
  ⟨o.loaded, h.loaded, h.stream ▸ List.prefix_append _ _⟩

end Outbox
