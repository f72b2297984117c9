/-
Lists that agree class by class: for a classification `c` of the elements,
two lists that have, for every class, the same elements of that class in the
same order. What several first-in first-out queues, one for each class, make
of their input agrees with the input class by class.
-/
import Mathlib.Data.List.Perm.Basic
import Mathlib.Tactic.Common

namespace Classes

variable {α κ : Type*} [DecidableEq κ]

/-- The elements of class `k`, in order. -/
def ofClass (c : α → κ) (k : κ) (l : List α) : List α := l.filter fun a => decide (c a = k)

/-- The same elements in the same order within every class. -/
def Agree (c : α → κ) (l₁ l₂ : List α) : Prop := ∀ k, ofClass c k l₁ = ofClass c k l₂

variable {c : α → κ} {k : κ}

@[simp] theorem ofClass_nil : ofClass c k [] = [] := rfl

@[simp] theorem ofClass_append (l₁ l₂ : List α) :
    ofClass c k (l₁ ++ l₂) = ofClass c k l₁ ++ ofClass c k l₂ := by
  simp [ofClass]

theorem ofClass_of_forall {l : List α} (h : ∀ a ∈ l, c a = k) : ofClass c k l = l := by
  simpa [ofClass, List.filter_eq_self] using h

theorem ofClass_of_forall_ne {l : List α} (h : ∀ a ∈ l, c a ≠ k) : ofClass c k l = [] := by
  simpa [ofClass, List.filter_eq_nil_iff] using h

/-- In every class a start of what the other list has of it: what has come out
of several first-in first-out queues so far, and what went in. -/
def Behind (c : α → κ) (l₁ l₂ : List α) : Prop := ∀ k, ofClass c k l₁ <+: ofClass c k l₂

/-- Lists that agree class by class have the same elements equally often. -/
theorem Agree.perm {l₁ l₂ : List α} (h : Agree c l₁ l₂) : l₁.Perm l₂ := by
  classical
  rw [List.perm_iff_count]
  intro a
  have key : ∀ l : List α, l.count a = (ofClass c (c a) l).count a := fun l => by
    rw [ofClass, List.count_filter (by simp)]
  rw [key l₁, key l₂, h (c a)]

section Behind

variable {κ' : Type*} [DecidableEq κ'] {d : α → κ'} {l₁ l₂ l₃ : List α}

theorem ofClass_filter (p : α → Bool) (l : List α) : ofClass c k (l.filter p) = (ofClass c k l).filter p := by
  simp only [ofClass, List.filter_filter, Bool.and_comm]

theorem ofClass_pair (k : κ) (j : κ') (l : List α) :
    ofClass (fun a => (c a, d a)) (k, j) l = ofClass c k (ofClass d j l) := by
  simp [ofClass, List.filter_filter]

theorem ofClass_comm (k : κ) (j : κ') (l : List α) : ofClass c k (ofClass d j l) = ofClass d j (ofClass c k l) :=
  ofClass_filter _ l

theorem Behind.of_prefix (h : l₁ <+: l₂) : Behind c l₁ l₂ := fun _ => h.filter _

theorem Behind.trans (h : Behind c l₁ l₂) (h' : Behind c l₂ l₃) : Behind c l₁ l₃ := fun k => (h k).trans (h' k)

theorem Behind.filter (h : Behind c l₁ l₂) (p : α → Bool) : Behind c (l₁.filter p) (l₂.filter p) := by
  intro k
  rw [ofClass_filter, ofClass_filter]
  exact (h k).filter p

theorem Behind.map {β : Type*} {g : β → α} {l₁ l₂ : List β} (h : Behind (c ∘ g) l₁ l₂) :
    Behind c (l₁.map g) (l₂.map g) := by
  intro k
  have hmap : ∀ l : List β, ofClass c k (l.map g) = (ofClass (c ∘ g) k l).map g := fun l => by
    simp only [ofClass, List.filter_map]
    rfl
  rw [hmap, hmap]
  exact (h k).map g

/-- The classes may be called by other names. -/
theorem Behind.comp {f : κ → κ'} (hf : Function.Injective f) (h : Behind c l₁ l₂) : Behind (f ∘ c) l₁ l₂ := by
  intro k
  by_cases hk : ∃ j, f j = k
  · obtain ⟨j, rfl⟩ := hk
    have hsame : ∀ l : List α, ofClass (f ∘ c) (f j) l = ofClass c j l := fun l => by
      simp only [ofClass, Function.comp_apply, hf.eq_iff]
    rw [hsame, hsame]
    exact h j
  · have hnone : ofClass (f ∘ c) k l₁ = [] := ofClass_of_forall_ne fun a _ ha => hk ⟨c a, ha⟩
    rw [hnone]
    exact List.nil_prefix

/-- Two stages of queues one after the other, each with classes of its own:
what has come out of the second is in order within the pairs of classes. -/
theorem Behind.pair (h : Behind c l₂ l₃) (h' : Behind d l₁ l₂) : Behind (fun a => (c a, d a)) l₁ l₃ := by
  rintro ⟨k, j⟩
  have hlast : ofClass c k (ofClass d j l₁) <+: ofClass c k (ofClass d j l₂) := (h' j).filter _
  have hfirst : ofClass d j (ofClass c k l₂) <+: ofClass d j (ofClass c k l₃) := (h k).filter _
  rw [ofClass_pair, ofClass_pair, ofClass_comm k j l₃]
  rw [ofClass_comm k j l₂] at hlast
  exact hlast.trans hfirst

end Behind

end Classes
