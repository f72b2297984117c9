/-
Stores: what is put under a key is found there, and what is under the other keys
stays. An ordered map is a store, and a map of maps is one under pairs of keys.

A store is listed by entries under different keys (`Store.Lists`). Entries that
are read back from somewhere, and put under the keys that are read back with them,
make the same store again exactly when each of them is read back as it was
(`Store.build_eq_iff`), provided that an entry tells what its key is.
-/
import RoflCommon.Lib.Omap

structure Store (σ κ α : Type*) [DecidableEq κ] where
  empty : σ
  find : σ → κ → Option α
  put : σ → κ → α → σ
  find_empty : ∀ k, find empty k = none
  find_put : ∀ s k a k', find (put s k a) k' = if k' = k then some a else find s k'

namespace Store

variable {σ κ α β : Type*} [DecidableEq κ] (S : Store σ κ α)

/-- Entries put one after another. -/
def build (es : List (κ × α)) : σ := es.foldl (fun s e => S.put s e.1 e.2) S.empty

/-- The entries are what is found, under different keys. -/
structure Lists (s : σ) (es : List (κ × α)) : Prop where
  nodup : (es.map Prod.fst).Nodup
  find : ∀ k a, S.find s k = some a ↔ (k, a) ∈ es

variable {S}

theorem mem_of_find_foldl {es : List (κ × α)} {s : σ} {k : κ} {a : α}
    (h : S.find (es.foldl (fun s e => S.put s e.1 e.2) s) k = some a) : (k, a) ∈ es ∨ S.find s k = some a := by
  induction es generalizing s with
  | nil => exact .inr h
  | cons e es ih =>
    rcases ih h with hmem | hfind
    · exact .inl (List.mem_cons_of_mem _ hmem)
    · rw [S.find_put] at hfind
      split at hfind
      · next hk =>
        cases hfind
        exact .inl (hk ▸ List.mem_cons_self)
      · exact .inr hfind

theorem mem_of_find_build {es : List (κ × α)} {k : κ} {a : α} (h : S.find (S.build es) k = some a) : (k, a) ∈ es := by
  rcases mem_of_find_foldl h with hmem | hfind
  · exact hmem
  · rw [S.find_empty] at hfind
    cases hfind

theorem find_foldl_of_not_mem {es : List (κ × α)} {s : σ} {k : κ} (h : k ∉ es.map Prod.fst) :
    S.find (es.foldl (fun s e => S.put s e.1 e.2) s) k = S.find s k := by
  induction es generalizing s with
  | nil => rfl
  | cons e es ih =>
    rw [List.map_cons, List.mem_cons, not_or] at h
    rw [List.foldl_cons, ih h.2, S.find_put, if_neg h.1]

theorem find_foldl_of_mem {es : List (κ × α)} (hnodup : (es.map Prod.fst).Nodup) {s : σ} {k : κ} {a : α}
    (h : (k, a) ∈ es) : S.find (es.foldl (fun s e => S.put s e.1 e.2) s) k = some a := by
  induction es generalizing s with
  | nil => cases h
  | cons e es ih =>
    obtain ⟨hnot, hnodup⟩ := List.nodup_cons.mp hnodup
    rcases List.mem_cons.mp h with rfl | h
    · rw [List.foldl_cons, find_foldl_of_not_mem hnot, S.find_put, if_pos rfl]
    · exact ih hnodup h

/-- What is built of entries under different keys is listed by them. -/
theorem lists_build {es : List (κ × α)} (h : (es.map Prod.fst).Nodup) : S.Lists (S.build es) es :=
  ⟨h, fun _ _ => ⟨mem_of_find_build, find_foldl_of_mem h⟩⟩

theorem Lists.find_eq {s s' : σ} {es : List (κ × α)} (h : S.Lists s es) (h' : S.Lists s' es) (k : κ) :
    S.find s k = S.find s' k :=
  Option.ext fun a => (h.find k a).trans (h'.find k a).symm

/-- An entry that is read back tells the key it had. -/
theorem build_eq_iff {s : σ} {es : List (κ × α)} (hs : S.Lists s es) {bs : List β} {entry read : β → κ × α}
    (hentry : bs.map entry = es) {ident : α → κ} (hident : ∀ e ∈ es, ident e.2 = e.1)
    (hkeep : ∀ b ∈ bs, ident (read b).2 = (entry b).1) :
    (∀ k, S.find (S.build (bs.map read)) k = S.find s k) ↔ ∀ b ∈ bs, read b = entry b := by
  constructor
  · intro h b hb
    have hmem : entry b ∈ es := hentry ▸ List.mem_map_of_mem hb
    have hfind := (h _).trans ((hs.find _ _).mpr hmem)
    obtain ⟨b', hb', hread⟩ := List.mem_map.mp (mem_of_find_build hfind)
    have hkey : (entry b').1 = (entry b).1 := by
      rw [← hkeep b' hb', hread]
      exact hident _ hmem
    have hnodup : (bs.map fun b => (entry b).1).Nodup := by
      have := hs.nodup
      rwa [← hentry, List.map_map] at this
    rw [List.inj_on_of_nodup_map hnodup hb' hb hkey] at hread
    exact hread
  · intro h k
    rw [List.map_congr_left h, hentry]
    exact (lists_build hs.nodup).find_eq hs k

end Store

namespace Omap

variable {κ κ' α : Type*} [LinearOrder κ] [LinearOrder κ']

def store : Store (Omap κ α) κ α where
  empty := .empty
  find := find?
  put := insert
  find_empty _ := rfl
  find_put m k a k' := find?_insert m k k' a

theorem lists_entries (m : Omap κ α) : store.Lists m m.entries := ⟨m.nodup_keys, fun _ _ => find?_eq_some⟩

/-! ### Maps of maps -/

def find₂ (m : Omap κ (Omap κ' α)) (k : κ × κ') : Option α := (m.find? k.1).bind fun inner => inner.find? k.2

def insert₂ (m : Omap κ (Omap κ' α)) (k : κ × κ') (a : α) : Omap κ (Omap κ' α) :=
  m.insert k.1 (((m.find? k.1).getD .empty).insert k.2 a)

/-- The entries, map by map. -/
def entries₂ (m : Omap κ (Omap κ' α)) : List ((κ × κ') × α) :=
  m.entries.flatMap fun e => e.2.entries.map fun d => ((e.1, d.1), d.2)

theorem find₂_insert₂ (m : Omap κ (Omap κ' α)) (k : κ × κ') (a : α) (k' : κ × κ') :
    (m.insert₂ k a).find₂ k' = if k' = k then some a else m.find₂ k' := by
  obtain ⟨p, q⟩ := k
  obtain ⟨p', q'⟩ := k'
  unfold find₂ insert₂
  dsimp only
  rw [find?_insert]
  by_cases hp : p' = p
  · rw [if_pos hp, Option.bind_some, find?_insert]
    by_cases hq : q' = q
    · simp [hp, hq]
    · cases hm : m.find? p <;> simp [hp, hq, hm]
  · simp [hp]

def store₂ : Store (Omap κ (Omap κ' α)) (κ × κ') α where
  empty := .empty
  find := find₂
  put := insert₂
  find_empty _ := rfl
  find_put := find₂_insert₂

theorem mem_entries₂ {m : Omap κ (Omap κ' α)} {k : κ × κ'} {a : α} : (k, a) ∈ m.entries₂ ↔ m.find₂ k = some a := by
  obtain ⟨p, q⟩ := k
  unfold find₂
  rw [Option.bind_eq_some_iff]
  constructor
  · intro h
    obtain ⟨e, he, h⟩ := List.mem_flatMap.mp h
    obtain ⟨d, hd, h⟩ := List.mem_map.mp h
    cases h
    exact ⟨e.2, find?_eq_some.mpr he, find?_eq_some.mpr hd⟩
  · rintro ⟨inner, hinner, h⟩
    exact List.mem_flatMap.mpr
      ⟨(p, inner), find?_eq_some.mp hinner, List.mem_map.mpr ⟨(q, a), find?_eq_some.mp h, rfl⟩⟩

theorem nodup_keys₂ (m : Omap κ (Omap κ' α)) : (m.entries₂.map Prod.fst).Nodup := by
  have hkeys : m.entries₂.map Prod.fst = m.entries.flatMap fun e => e.2.keys.map (Prod.mk e.1) := by
    simp only [entries₂, List.map_flatMap, List.map_map, keys]
    rfl
  rw [hkeys]
  refine List.nodup_flatMap.mpr ⟨fun e _ => e.2.nodup_keys.map fun _ _ h => (Prod.mk.inj h).2, ?_⟩
  refine m.ascending.imp fun hlt => List.disjoint_left.mpr fun k hk hk' => ?_
  obtain ⟨q, -, rfl⟩ := List.mem_map.mp hk
  obtain ⟨q', -, h⟩ := List.mem_map.mp hk'
  exact hlt.ne' (Prod.ext_iff.mp h).1

theorem lists_entries₂ (m : Omap κ (Omap κ' α)) : store₂.Lists m m.entries₂ :=
  ⟨m.nodup_keys₂, fun _ _ => mem_entries₂.symm⟩

end Omap
