/-
An ordered map, as `std::map` is one: its entries in strictly ascending order
of their keys, which is the order the iterators run in.

Two maps that find the same under every key are equal (`ext_find?`), and an
insertion behind the last key appends (`entries_insert`): the first serves
maps that are looked up, the second maps that are built in order.
-/
import Mathlib.Algebra.Order.Ring.Nat
import Mathlib.Order.Lattice
import Mathlib.Data.List.Nodup
import Mathlib.Data.List.Perm.Subperm
import Mathlib.Tactic.Common

structure Omap (κ α : Type*) [LinearOrder κ] where
  entries : List (κ × α)
  ascending : entries.Pairwise fun a b => a.1 < b.1

namespace Omap

variable {κ α : Type*} [LinearOrder κ]

@[ext] theorem ext {m m' : Omap κ α} (h : m.entries = m'.entries) : m = m' := by
  cases m
  cases m'
  simpa using h

instance [DecidableEq α] : DecidableEq (Omap κ α) := fun m m' =>
  decidable_of_iff (m.entries = m'.entries) ⟨ext, fun h => h ▸ rfl⟩

/-! ## Operations -/

/-- Insertion into ascending entries; what stood under the key is replaced. -/
def put (k : κ) (v : α) : List (κ × α) → List (κ × α)
  | [] => [(k, v)]
  | e :: es =>
    if k < e.1 then (k, v) :: e :: es
    else if k = e.1 then (k, v) :: es
    else e :: put k v es

theorem mem_put {k : κ} {v : α} {e : κ × α} {es : List (κ × α)} (h : e ∈ put k v es) :
    e = (k, v) ∨ e ∈ es := by
  induction es with
  | nil => simpa [put] using h
  | cons d es ih =>
    unfold put at h
    split at h
    · simpa using h
    · split at h <;> grind

theorem pairwise_put {k : κ} {v : α} {es : List (κ × α)} (h : es.Pairwise fun a b => a.1 < b.1) :
    (put k v es).Pairwise fun a b => a.1 < b.1 := by
  induction es with
  | nil => simp [put]
  | cons d es ih =>
    obtain ⟨hd, hes⟩ := List.pairwise_cons.mp h
    unfold put
    split_ifs with hlt heq
    · refine h.cons fun a ha => ?_
      cases List.mem_cons.mp ha with
      | inl ha => exact ha ▸ hlt
      | inr ha => exact hlt.trans (hd a ha)
    · exact hes.cons fun a ha => heq ▸ hd a ha
    · refine (ih hes).cons fun a ha => ?_
      cases mem_put ha with
      | inl ha => exact ha ▸ lt_of_le_of_ne (not_lt.mp hlt) (Ne.symm heq)
      | inr ha => exact hd a ha

/-- The value under a key. -/
def look (k : κ) : List (κ × α) → Option α
  | [] => none
  | e :: es => if k = e.1 then some e.2 else look k es

def empty : Omap κ α := ⟨[], .nil⟩

def keys (m : Omap κ α) : List κ := m.entries.map Prod.fst

def values (m : Omap κ α) : List α := m.entries.map Prod.snd

def size (m : Omap κ α) : Nat := m.entries.length

def find? (m : Omap κ α) (k : κ) : Option α := look k m.entries

def insert (m : Omap κ α) (k : κ) (v : α) : Omap κ α := ⟨put k v m.entries, pairwise_put m.ascending⟩

/-- What is left when only the entries with `p` stay. -/
def filter (m : Omap κ α) (p : κ → α → Bool) : Omap κ α :=
  ⟨m.entries.filter fun e => p e.1 e.2, m.ascending.filter _⟩

def erase (m : Omap κ α) (k : κ) : Omap κ α := m.filter fun k' _ => k' ≠ k

/-- The function applied to every entry; the keys stay. -/
def map {β : Type*} (m : Omap κ α) (f : κ → α → β) : Omap κ β :=
  ⟨m.entries.map fun e => (e.1, f e.1 e.2), List.pairwise_map.mpr m.ascending⟩

/-- `find?`, then `insert` or `erase`. -/
def alter (m : Omap κ α) (k : κ) (f : Option α → Option α) : Omap κ α :=
  match f (m.find? k) with
  | some v => m.insert k v
  | none => m.erase k

/-! ## Lookup -/

@[simp] theorem find?_empty (k : κ) : (empty : Omap κ α).find? k = none := rfl

@[simp] theorem size_empty : (empty : Omap κ α).size = 0 := rfl

theorem look_put (k k' : κ) (v : α) (es : List (κ × α)) :
    look k' (put k v es) = if k' = k then some v else look k' es := by
  induction es with
  | nil => rfl
  | cons d es ih =>
    unfold put
    by_cases hlt : k < d.1
    · simp [hlt, look]
    · by_cases heq : k = d.1
      · by_cases h : k' = k <;> simp [look, h, ← heq]
      · by_cases h : k' = d.1
        · have hne : d.1 ≠ k := Ne.symm heq
          simp [hlt, heq, look, h, hne]
        · simp [hlt, heq, look, h, ih]

@[simp] theorem find?_insert (m : Omap κ α) (k k' : κ) (v : α) :
    (m.insert k v).find? k' = if k' = k then some v else m.find? k' := look_put k k' v m.entries

theorem find?_eq_some {m : Omap κ α} {k : κ} {v : α} : m.find? k = some v ↔ (k, v) ∈ m.entries := by
  obtain ⟨es, hes⟩ := m
  change look k es = some v ↔ (k, v) ∈ es
  induction es with
  | nil => simp [look]
  | cons d es ih =>
    obtain ⟨hd, htail⟩ := List.pairwise_cons.mp hes
    unfold look
    split_ifs with h
    · have hnot : (d.1, v) ∉ es := fun hm => (hd _ hm).false
      simp [hnot, Prod.ext_iff, h, eq_comm (a := v)]
    · simp [ih htail, Prod.ext_iff, h]

@[simp] theorem find?_filter (m : Omap κ α) (p : κ → α → Bool) (k : κ) :
    (m.filter p).find? k = (m.find? k).filter (p k) := by
  refine Option.ext fun v => ?_
  rw [find?_eq_some, Option.filter_eq_some_iff, find?_eq_some]
  simp [filter]

@[simp] theorem find?_erase (m : Omap κ α) (k k' : κ) :
    (m.erase k).find? k' = if k' = k then none else m.find? k' := by
  unfold erase
  rw [find?_filter]
  by_cases h : k' = k <;> cases m.find? k' <;> simp [h]

@[simp] theorem find?_alter (m : Omap κ α) (k k' : κ) (f : Option α → Option α) :
    (m.alter k f).find? k' = if k' = k then f (m.find? k) else m.find? k' := by
  unfold alter
  split
  next h => simp [h]
  next h => simp [h]

@[simp] theorem find?_map {β : Type*} (m : Omap κ α) (f : κ → α → β) (k : κ) :
    (m.map f).find? k = (m.find? k).map (f k) := by
  refine Option.ext fun v => ?_
  rw [find?_eq_some, Option.map_eq_some_iff]
  simp only [map, List.mem_map, Prod.mk.injEq, find?_eq_some]
  constructor
  · rintro ⟨e, he, rfl, rfl⟩
    exact ⟨e.2, he, rfl⟩
  · rintro ⟨w, hw, rfl⟩
    exact ⟨(k, w), hw, rfl, rfl⟩

theorem map_map {β γ : Type*} (m : Omap κ α) (f : κ → α → β) (g : κ → β → γ) :
    (m.map f).map g = m.map fun k v => g k (f k v) := ext List.map_map

theorem values_map {β : Type*} (m : Omap κ α) (f : α → β) : (m.map fun _ => f).values = m.values.map f := by
  rw [values, values, map, List.map_map, List.map_map]
  rfl

theorem mem_keys {m : Omap κ α} {k : κ} : k ∈ m.keys ↔ (m.find? k).isSome := by
  rw [Option.isSome_iff_exists]
  simp [keys, find?_eq_some]

theorem find?_eq_none {m : Omap κ α} {k : κ} : m.find? k = none ↔ k ∉ m.keys := by
  simp [mem_keys]

theorem entries_eq_nil {m : Omap κ α} : m.entries = [] ↔ ∀ k, m.find? k = none := by
  constructor
  · intro h k
    simp [find?, h, look]
  · intro h
    refine List.eq_nil_iff_forall_not_mem.mpr fun e he => ?_
    have hnone := h e.1
    rw [find?_eq_some.mpr he] at hnone
    cases hnone

theorem nodup_keys (m : Omap κ α) : m.keys.Nodup :=
  (List.pairwise_map.mpr m.ascending).imp ne_of_lt

theorem nodup_entries (m : Omap κ α) : m.entries.Nodup := m.nodup_keys.of_map

/-- A map that has each value under one key only. -/
theorem nodup_values {m : Omap κ α} (h : ∀ k k' v, m.find? k = some v → m.find? k' = some v → k = k') :
    m.values.Nodup := by
  refine m.nodup_entries.map_on fun e he e' he' heq => ?_
  have hkey : e.1 = e'.1 := h e.1 e'.1 e.2 (find?_eq_some.mpr he) (find?_eq_some.mpr (heq ▸ he'))
  exact Prod.ext hkey heq

/-- A map is what it finds. -/
theorem ext_find? {m m' : Omap κ α} (h : ∀ k, m.find? k = m'.find? k) : m = m' := by
  have hmem : ∀ e, e ∈ m.entries ↔ e ∈ m'.entries := by
    intro e
    rw [← find?_eq_some, ← find?_eq_some, h]
  have hperm : m.entries.Perm m'.entries := (List.perm_ext_iff_of_nodup m.nodup_entries m'.nodup_entries).mpr hmem
  exact ext (hperm.eq_of_pairwise (fun a b _ _ hab hba => (hab.trans hba).false.elim) m.ascending m'.ascending)

/-! ## Size -/

/-- Maps of two kinds of values with the same keys. -/
theorem keys_eq_of_isSome {β : Type*} {m : Omap κ α} {m' : Omap κ β}
    (h : ∀ k, (m.find? k).isSome = (m'.find? k).isSome) : m.keys = m'.keys := by
  have hunit : (m.map fun _ _ => ()) = m'.map fun _ _ => () := ext_find? fun k => by
    have hk := h k
    rw [find?_map, find?_map]
    cases hm : m.find? k <;> cases hm' : m'.find? k <;> simp_all
  have hkeys := congrArg keys hunit
  simpa [keys, map, Function.comp_def] using hkeys

theorem size_insert (m : Omap κ α) (k : κ) (v : α) :
    (m.insert k v).size = if (m.find? k).isSome then m.size else m.size + 1 := by
  obtain ⟨es, hes⟩ := m
  change (put k v es).length = if (look k es).isSome then es.length else es.length + 1
  induction es with
  | nil => rfl
  | cons d es ih =>
    obtain ⟨hd, htail⟩ := List.pairwise_cons.mp hes
    have := ih htail
    unfold put look
    by_cases hlt : k < d.1
    · have hnone : look k es = none := by
        refine (find?_eq_none (m := ⟨es, htail⟩)).mpr fun hk => ?_
        obtain ⟨e, he, rfl⟩ := List.mem_map.mp hk
        exact lt_asymm hlt (hd e he)
      simp [hlt, hlt.ne, hnone]
    · by_cases heq : k = d.1
      · simp [heq]
      · simp only [hlt, heq, if_false, List.length_cons, this]
        split <;> rfl

/-- A map whose keys are all in a list is no longer than the list. -/
theorem size_le {m : Omap κ α} {ks : List κ} (h : ∀ k, (m.find? k).isSome → k ∈ ks) : m.size ≤ ks.length := by
  have hsub : m.keys ⊆ ks := fun k hk => h k (mem_keys.mp hk)
  have := (m.nodup_keys.subperm hsub).length_le
  simpa [keys, size] using this

/-- The first number that is no key. -/
def firstFree (m : Omap ℕ α) : ℕ := ((List.range (m.size + 1)).find? fun k => (m.find? k).isNone).getD 0

theorem find?_firstFree (m : Omap ℕ α) : m.find? m.firstFree = none := by
  unfold firstFree
  cases h : (List.range (m.size + 1)).find? fun k => (m.find? k).isNone with
  | some k => simpa using List.find?_some h
  | none =>
    have hall : ∀ k ∈ List.range (m.size + 1), k ∈ m.keys := fun k hk => by
      rw [mem_keys]
      simpa [Option.isSome_iff_ne_none] using List.find?_eq_none.mp h k hk
    have hle := (List.nodup_range.subperm hall).length_le
    rw [List.length_range] at hle
    have hsize : m.keys.length = m.size := List.length_map _
    omega

/-- What is under the least key stands first. -/
theorem entries_eq_cons {m : Omap κ α} {k : κ} {v : α} (hmin : ∀ k', k ≤ k') (h : m.find? k = some v) :
    ∃ es, m.entries = (k, v) :: es ∧ ∀ e ∈ es, e.1 ≠ k := by
  obtain ⟨es, hes⟩ := m
  have hmem : (k, v) ∈ es := find?_eq_some.mp h
  cases es with
  | nil => cases hmem
  | cons d es =>
    obtain ⟨hd, -⟩ := List.pairwise_cons.mp hes
    rcases List.mem_cons.mp hmem with rfl | htail
    · exact ⟨es, rfl, fun e he => (hd e he).ne'⟩
    · exact absurd (hd _ htail) (not_lt.mpr (hmin d.1))

/-! ## Building in order -/

/-- An insertion behind the last key appends. -/
theorem entries_insert {m : Omap κ α} {k : κ} (v : α) (h : ∀ e ∈ m.entries, e.1 < k) :
    (m.insert k v).entries = m.entries ++ [(k, v)] := by
  obtain ⟨es, hes⟩ := m
  change put k v es = es ++ [(k, v)]
  induction es with
  | nil => rfl
  | cons d es ih =>
    have hd : d.1 < k := h d (by simp)
    have htail := ih (List.pairwise_cons.mp hes).2 fun e he => h e (by simp [he])
    simp [put, hd.not_gt, hd.ne', htail]

/-- Insertion of entries, one after another. -/
def insertAll (m : Omap κ α) (es : List (κ × α)) : Omap κ α := es.foldl (fun m e => m.insert e.1 e.2) m

theorem entries_insertAll {m : Omap κ α} {es : List (κ × α)}
    (h : (m.entries ++ es).Pairwise fun a b => a.1 < b.1) : (m.insertAll es).entries = m.entries ++ es := by
  induction es generalizing m with
  | nil => simp [insertAll]
  | cons e es ih =>
    have hins : (m.insert e.1 e.2).entries = m.entries ++ [e] :=
      entries_insert e.2 fun d hd => (List.pairwise_append.mp h).2.2 d hd e (by simp)
    have hrest := ih (m := m.insert e.1 e.2) (by simpa [hins] using h)
    simpa [insertAll, hins] using hrest

theorem find?_insertAll_of_notMem (m : Omap κ α) {es : List (κ × α)} {k : κ} (h : k ∉ es.map Prod.fst) :
    (m.insertAll es).find? k = m.find? k := by
  induction es generalizing m with
  | nil => rfl
  | cons e es ih =>
    rw [List.map_cons, List.mem_cons, not_or] at h
    exact (ih (m.insert e.1 e.2) h.2).trans (by rw [find?_insert, if_neg h.1])

/-- Entries with different keys are all found. -/
theorem find?_insertAll (m : Omap κ α) {es : List (κ × α)} (h : (es.map Prod.fst).Nodup) {k : κ} {v : α}
    (hmem : (k, v) ∈ es) : (m.insertAll es).find? k = some v := by
  induction es generalizing m with
  | nil => cases hmem
  | cons e es ih =>
    rw [List.map_cons, List.nodup_cons] at h
    rcases List.mem_cons.mp hmem with rfl | hmem
    · exact (find?_insertAll_of_notMem (m.insert k v) h.1).trans (by rw [find?_insert, if_pos rfl])
    · exact ih (m.insert e.1 e.2) h.2 hmem

/-- Inserting the entries of a map in their order makes the map again. -/
theorem foldl_insert {β : Type*} (m : Omap κ α) (f : κ → α → β) :
    m.entries.foldl (fun (s : Omap κ β) e => s.insert e.1 (f e.1 e.2)) .empty = m.map f := by
  have hfold : m.entries.foldl (fun (s : Omap κ β) e => s.insert e.1 (f e.1 e.2)) .empty =
      (.empty : Omap κ β).insertAll (m.map f).entries := by
    rw [insertAll, map, List.foldl_map]
  have hascending : ((.empty : Omap κ β).entries ++ (m.map f).entries).Pairwise fun a b => a.1 < b.1 :=
    (m.map f).ascending
  rw [hfold]
  exact ext (entries_insertAll hascending)

/-! ## Weights -/

/-- What the values weigh together. -/
def weight (f : α → ℕ) (m : Omap κ α) : ℕ := (m.values.map f).sum

theorem weight_put (f : α → ℕ) (k : κ) (v : α) {es : List (κ × α)} (h : es.Pairwise fun a b => a.1 < b.1) :
    ((put k v es).map fun e => f e.2).sum + ((look k es).map f).getD 0 = f v + (es.map fun e => f e.2).sum := by
  induction es with
  | nil => rfl
  | cons d es ih =>
    have htail := ih (List.pairwise_cons.mp h).2
    rw [put, look]
    by_cases hlt : k < d.1
    · have hnone : look k es = none := by
        have hkeys : ∀ e ∈ es, k ≠ e.1 := fun e he => (hlt.trans ((List.pairwise_cons.mp h).1 e he)).ne
        clear ih htail h
        induction es with
        | nil => rfl
        | cons e es ih =>
          rw [look, if_neg (hkeys e List.mem_cons_self)]
          exact ih fun e' he' => hkeys e' (List.mem_cons_of_mem e he')
      rw [if_pos hlt, if_neg hlt.ne, hnone]
      rfl
    · rw [if_neg hlt]
      by_cases heq : k = d.1
      · rw [if_pos heq, if_pos heq, List.map_cons, List.map_cons, List.sum_cons, List.sum_cons]
        show f v + _ + f d.2 = f v + (f d.2 + _)
        omega
      · rw [if_neg heq, if_neg heq, List.map_cons, List.map_cons, List.sum_cons, List.sum_cons]
        omega

/-- What is replaced is taken off. -/
theorem weight_insert (f : α → ℕ) (m : Omap κ α) (k : κ) (v : α) :
    (m.insert k v).weight f + ((m.find? k).map f).getD 0 = m.weight f + f v := by
  have hput := weight_put f k v m.ascending
  rw [weight, weight, values, values, List.map_map, List.map_map]
  exact hput.trans (Nat.add_comm _ _)

/-! ## Replacing -/

theorem insert_insert (m : Omap κ α) (k : κ) (v w : α) : (m.insert k v).insert k w = m.insert k w := by
  refine ext_find? fun k' => ?_
  by_cases h : k' = k <;> simp [h]

theorem erase_insert {m : Omap κ α} {k : κ} (v : α) : (m.insert k v).erase k = m.erase k := by
  refine ext_find? fun k' => ?_
  by_cases h : k' = k <;> simp [h]

theorem erase_of_find?_eq_none {m : Omap κ α} {k : κ} (h : m.find? k = none) : m.erase k = m := by
  refine ext_find? fun k' => ?_
  by_cases hk : k' = k <;> simp [hk, h]

/-! ## Maps whose keys count from zero -/

theorem ascending_zip (vs : List α) : ((List.range vs.length).zip vs).Pairwise fun a b => a.1 < b.1 := by
  have hkeys : ((List.range vs.length).zip vs).map Prod.fst = List.range vs.length :=
    List.map_fst_zip (by rw [List.length_range])
  have hrange : (((List.range vs.length).zip vs).map Prod.fst).Pairwise (· < ·) := by
    rw [hkeys]
    exact List.pairwise_lt_range
  exact List.pairwise_map.mp hrange

def ofList (vs : List α) : Omap ℕ α := ⟨(List.range vs.length).zip vs, ascending_zip vs⟩

@[simp] theorem keys_ofList (vs : List α) : (ofList vs).keys = List.range vs.length :=
  List.map_fst_zip (by rw [List.length_range])

@[simp] theorem values_ofList (vs : List α) : (ofList vs).values = vs :=
  List.map_snd_zip (by rw [List.length_range])

@[simp] theorem size_ofList (vs : List α) : (ofList vs).size = vs.length := by
  have hsize : (ofList vs).values.length = (ofList vs).size := List.length_map _
  rw [← hsize, values_ofList]

theorem eq_ofList_iff {m : Omap ℕ α} : m = ofList m.values ↔ m.keys = List.range m.size := by
  constructor
  · intro h
    have hkeys := congrArg keys h
    rw [keys_ofList] at hkeys
    simpa [values, size] using hkeys
  · intro h
    have hlen : m.values.length = m.size := List.length_map _
    refine ext ?_
    show m.entries = (List.range m.values.length).zip m.values
    rw [hlen, ← h, keys, values, List.zip_map', List.map_id']

theorem insert_ofList (vs : List α) (v : α) : (ofList vs).insert vs.length v = ofList (vs ++ [v]) := by
  have hlt : ∀ e ∈ (ofList vs).entries, e.1 < vs.length := fun e he => by
    have hmem : e.1 ∈ (ofList vs).keys := List.mem_map_of_mem he
    rwa [keys_ofList, List.mem_range] at hmem
  refine ext ?_
  rw [entries_insert v hlt]
  show (List.range vs.length).zip vs ++ [(vs.length, v)] = (List.range (vs ++ [v]).length).zip (vs ++ [v])
  rw [List.length_append, List.length_singleton, List.range_succ, List.zip_append (by rw [List.length_range])]
  rfl

/-- Values that are put under the next key each. -/
theorem foldl_insert_size (vs us : List α) :
    us.foldl (fun (m : Omap ℕ α) v => m.insert m.size v) (ofList vs) = ofList (vs ++ us) := by
  induction us generalizing vs with
  | nil => rw [List.foldl_nil, List.append_nil]
  | cons u us ih => rw [List.foldl_cons, size_ofList, insert_ofList, ih, List.append_assoc, List.singleton_append]

end Omap
