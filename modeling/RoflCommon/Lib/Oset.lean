/-
An ordered set, as `std::set` is one: elements in strictly ascending order of
a key. Two elements with one key are the same to it, and the second is not
inserted.
-/
import Mathlib.Order.Lattice
import Mathlib.Tactic.Common

structure Oset {α κ : Type*} [LinearOrder κ] (key : α → κ) where
  elems : List α
  ascending : elems.Pairwise fun a b => key a < key b

namespace Oset

variable {α κ : Type*} [LinearOrder κ] {key : α → κ}

@[ext] theorem ext {s s' : Oset key} (h : s.elems = s'.elems) : s = s' := by
  cases s
  cases s'
  simpa using h

instance [DecidableEq α] : DecidableEq (Oset key) := fun s s' =>
  decidable_of_iff (s.elems = s'.elems) ⟨ext, fun h => h ▸ rfl⟩

/-- Insertion into ascending elements. -/
def put (key : α → κ) (a : α) : List α → List α
  | [] => [a]
  | b :: bs =>
    if key a < key b then a :: b :: bs
    else if key b < key a then b :: put key a bs
    else b :: bs

theorem mem_of_mem_put {a b : α} {bs : List α} (h : b ∈ put key a bs) : b = a ∨ b ∈ bs := by
  induction bs with
  | nil => simpa [put] using h
  | cons c cs ih =>
    unfold put at h
    split_ifs at h
    · simpa using h
    · cases List.mem_cons.mp h with
      | inl hb => exact .inr (by simp [hb])
      | inr hb => exact (ih hb).imp id (List.mem_cons_of_mem c)
    · exact .inr h

theorem pairwise_put {a : α} {bs : List α} (h : bs.Pairwise fun b c => key b < key c) :
    (put key a bs).Pairwise fun b c => key b < key c := by
  induction bs with
  | nil => simp [put]
  | cons c cs ih =>
    obtain ⟨hc, hcs⟩ := List.pairwise_cons.mp h
    unfold put
    split_ifs with hlt hgt
    · refine h.cons fun b hb => ?_
      cases List.mem_cons.mp hb with
      | inl hb => exact hb ▸ hlt
      | inr hb => exact hlt.trans (hc b hb)
    · refine (ih hcs).cons fun b hb => ?_
      cases mem_of_mem_put hb with
      | inl hb => exact hb ▸ hgt
      | inr hb => exact hc b hb
    · exact h

def empty : Oset key := ⟨[], .nil⟩

def size (s : Oset key) : Nat := s.elems.length

/-- `begin()`. -/
def first (s : Oset key) : Option α := s.elems.head?

def insert (s : Oset key) (a : α) : Oset key := ⟨put key a s.elems, pairwise_put s.ascending⟩

/-- What is left when only the elements with `p` stay. -/
def filter (s : Oset key) (p : α → Bool) : Oset key := ⟨s.elems.filter p, s.ascending.filter _⟩

/-- The first element with `p` is erased. -/
def eraseP (s : Oset key) (p : α → Bool) : Oset key :=
  ⟨s.elems.eraseP p, s.ascending.sublist List.eraseP_sublist⟩

/-- `erase(begin())`. -/
def eraseFirst (s : Oset key) : Oset key := ⟨s.elems.tail, s.ascending.tail⟩

instance : Membership α (Oset key) := ⟨fun s a => a ∈ s.elems⟩

theorem mem_def {s : Oset key} {a : α} : a ∈ s ↔ a ∈ s.elems := Iff.rfl

theorem not_mem_empty (a : α) : a ∉ (empty : Oset key) := List.not_mem_nil

@[simp] theorem mem_filter {s : Oset key} {p : α → Bool} {a : α} : a ∈ s.filter p ↔ a ∈ s ∧ p a = true :=
  List.mem_filter

/-- Where an element has the key, nothing is inserted. -/
theorem insert_of_mem {s : Oset key} {a b : α} (hb : b ∈ s) (h : key b = key a) : s.insert a = s := by
  obtain ⟨bs, hbs⟩ := s
  refine ext ?_
  change put key a bs = bs
  have hmem : b ∈ bs := hb
  clear hb
  induction bs with
  | nil => cases hmem
  | cons c cs ih =>
    obtain ⟨hc, hcs⟩ := List.pairwise_cons.mp hbs
    unfold put
    cases List.mem_cons.mp hmem with
    | inl heq =>
      subst heq
      simp [h]
    | inr hmem =>
      have hlt : key c < key a := h ▸ hc b hmem
      simp [hlt, hlt.not_gt, ih hcs hmem]

/-- An element with a new key is inserted. -/
theorem insert_perm {s : Oset key} {a : α} (h : ∀ c ∈ s, key c ≠ key a) : (s.insert a).elems.Perm (a :: s.elems) := by
  replace h : ∀ c ∈ s.elems, key c ≠ key a := h
  change (put key a s.elems).Perm (a :: s.elems)
  generalize s.elems = bs at h
  induction bs with
  | nil => exact .refl _
  | cons c cs ih =>
    have hc := h c (by simp)
    have hcs := ih fun d hd => h d (by simp [hd])
    unfold put
    split_ifs with hlt hgt
    · exact .refl _
    · exact (hcs.cons c).trans (.swap a c cs)
    · exact absurd (le_antisymm (not_lt.mp hlt) (not_lt.mp hgt)) hc

theorem mem_insert {s : Oset key} {a b : α} (h : ∀ c ∈ s, key c ≠ key a) : b ∈ s.insert a ↔ b = a ∨ b ∈ s :=
  (insert_perm h).mem_iff.trans List.mem_cons

/-- The first element has the least key. -/
theorem le_of_first {s : Oset key} {a b : α} (ha : s.first = some a) (hb : b ∈ s) : key a ≤ key b := by
  obtain ⟨bs, hbs⟩ := s
  cases bs with
  | nil => cases ha
  | cons c cs =>
    obtain rfl := Option.some.inj ha
    cases List.mem_cons.mp (mem_def.mp hb) with
    | inl heq => exact heq ▸ le_rfl
    | inr hmem => exact ((List.pairwise_cons.mp hbs).1 b hmem).le

theorem mem_of_first {s : Oset key} {a : α} (ha : s.first = some a) : a ∈ s :=
  List.mem_of_head? ha

/-- The first element is the one erased. -/
theorem mem_eraseFirst {s : Oset key} {a b : α} (ha : s.first = some a) : b ∈ s.eraseFirst ↔ b ∈ s ∧ b ≠ a := by
  obtain ⟨bs, hbs⟩ := s
  cases bs with
  | nil => cases ha
  | cons c cs =>
    obtain rfl := Option.some.inj ha
    have hc := (List.pairwise_cons.mp hbs).1
    change b ∈ cs ↔ b ∈ c :: cs ∧ b ≠ c
    rw [List.mem_cons]
    constructor
    · intro hb
      exact ⟨.inr hb, fun heq => lt_irrefl _ (heq ▸ hc b hb)⟩
    · intro hb
      exact hb.1.resolve_left hb.2

theorem first_eq_none {s : Oset key} : s.first = none ↔ ∀ a, a ∉ s := by
  simp [first, mem_def, List.eq_nil_iff_forall_not_mem]

/-- Where at most one element has `p`, it is the one erased. -/
theorem mem_eraseP {s : Oset key} {p : α → Bool} {b : α}
    (h : ∀ a ∈ s, ∀ b ∈ s, p a = true → p b = true → a = b) : b ∈ s.eraseP p ↔ b ∈ s ∧ ¬ p b = true := by
  obtain ⟨bs, hbs⟩ := s
  replace h : ∀ a ∈ bs, ∀ b ∈ bs, p a = true → p b = true → a = b := h
  change b ∈ bs.eraseP p ↔ b ∈ bs ∧ ¬ p b = true
  induction bs with
  | nil => simp
  | cons c cs ih =>
    obtain ⟨hc, hcs⟩ := List.pairwise_cons.mp hbs
    by_cases hp : p c = true
    · rw [List.eraseP_cons_of_pos hp, List.mem_cons]
      constructor
      · intro hb
        refine ⟨.inr hb, fun hpb => ?_⟩
        obtain rfl := h c (by simp) b (by simp [hb]) hp hpb
        exact lt_irrefl _ (hc c hb)
      · intro hb
        refine hb.1.resolve_left fun heq => ?_
        exact hb.2 (heq ▸ hp)
    · have hrec := ih hcs fun a ha b hb => h a (by simp [ha]) b (by simp [hb])
      rw [List.eraseP_cons_of_neg hp, List.mem_cons, List.mem_cons, hrec]
      constructor
      · intro hb
        cases hb with
        | inl heq => exact ⟨.inl heq, heq ▸ hp⟩
        | inr hb => exact ⟨.inr hb.1, hb.2⟩
      · intro hb
        exact hb.1.imp id fun hmem => ⟨hmem, hb.2⟩

/-- A set with a first element is that and the rest. -/
theorem elems_of_first {s : Oset key} {a : α} (ha : s.first = some a) : s.elems = a :: s.eraseFirst.elems := by
  obtain ⟨bs, hbs⟩ := s
  cases bs with
  | nil => cases ha
  | cons c cs =>
    obtain rfl := Option.some.inj ha
    rfl

theorem first_insert_of_lt {s : Oset key} {a : α} (h : ∀ b ∈ s, key a < key b) : (s.insert a).first = some a := by
  obtain ⟨bs, hbs⟩ := s
  cases bs with
  | nil => rfl
  | cons c cs =>
    have hc : key a < key c := h c List.mem_cons_self
    simp [insert, first, put, hc]

theorem first_insert_of_gt {s : Oset key} {a b : α} (hb : s.first = some b) (h : key b < key a) :
    (s.insert a).first = some b := by
  obtain ⟨bs, hbs⟩ := s
  cases bs with
  | nil => cases hb
  | cons c cs =>
    obtain rfl := Option.some.inj hb
    simp [insert, first, put, h, h.not_gt]

theorem filter_eq_self {s : Oset key} {p : α → Bool} (h : ∀ a ∈ s, p a = true) : s.filter p = s :=
  ext (List.filter_eq_self.mpr h)

theorem filter_eraseFirst {s : Oset key} {p : α → Bool} {a : α} (ha : s.first = some a) (h : p a = false) :
    s.eraseFirst.filter p = s.filter p := by
  refine ext ?_
  change s.eraseFirst.elems.filter p = s.elems.filter p
  rw [elems_of_first ha, List.filter_cons_of_neg (by simp [h])]

end Oset
