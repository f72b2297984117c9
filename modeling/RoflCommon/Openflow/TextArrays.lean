/-
Arrays of entries of one size, with texts in them: a loop over the entries unpacks each
and puts it under its key. An array that was packed into zeros comes back if and only if
each of its entries does (`TextArray.roundTrip_iff`).
-/
import RoflCommon.Openflow
import RoflCommon.Lib.Octets
import RoflCommon.Lib.Snprintf
import RoflCommon.Lib.Store
import RoflCommon.Lib.Tlv

namespace RoflCommon

/-- What is thrown, and a call of `snprintf` that the standard says nothing about. -/
inductive TextException
  | inval
  | badVersion
  | badRequestVersion
  | propNotFound
  | undefined
deriving DecidableEq, Repr

namespace TextArray

variable {ε : Type} {n : ℕ} {unpack : List UInt8 → Except TextException ε} {key : ε → ℕ}

/-- The loop: as long as there is an entry left, it is unpacked and put under its key. -/
def walker (n : ℕ) (unpack : List UInt8 → Except TextException ε) (key : ε → ℕ) :
    Tlv.Walker UInt8 (Omap ℕ ε) TextException where
  header := max 1 n
  header_pos := Tlv.Walker.max_pos n
  size _ := max 1 n
  header_le _ := Nat.le_refl _
  read x buf := do
    let e ← unpack (buf.take n)
    return x.insert (key e) e

/-- Entries that are packed into zeros and read back under their keys, and as `carried`
says. -/
theorem roundTrip_iff {x : Omap ℕ ε} {size : ε → ℕ} {pack : ε → List UInt8 → Except TextException (List UInt8)}
    {decoded : List UInt8 → ε} {carried : ε → ε} (hn : 0 < n) (hsize : ∀ e ∈ x.entries, size e.2 = n)
    (hunpack : ∀ buf, buf.length = n → unpack buf = .ok (decoded buf))
    (hpack : ∀ e ∈ x.entries, ∀ buf, pack e.2 (.replicate n 0) = .ok buf → buf.length = n ∧ key (decoded buf) = e.1)
    (hkey : ∀ e ∈ x.entries, key (carried e.2) = e.1) :
    (∃ buf y, Tlv.packAll (fun e => size e.2) (fun e => pack e.2) x.entries
        (.replicate (x.entries.map fun e => size e.2).sum 0) = .ok buf ∧
      (walker n unpack key).walk .empty buf = .ok y ∧ ∀ k, y.find? k = (x.find? k).map carried) ↔
    ∀ e ∈ x.entries, ∃ buf, pack e.2 (.replicate n 0) = .ok buf ∧ decoded buf = carried e.2 := by
  -- the octets of an entry, where it can be packed at all
  let image (e : ℕ × ε) : List UInt8 := (pack e.2 (.replicate n 0)).toOption.getD []
  have hwalk : (∀ e ∈ x.entries, pack e.2 (.replicate n 0) = .ok (image e)) →
      (walker n unpack key).walk .empty (x.entries.flatMap image) =
        .ok (Omap.store.build (x.entries.map fun e => (key (decoded (image e)), decoded (image e)))) := fun himage => by
    have hmax : max 1 n = n := by omega
    have hlength : ∀ e ∈ x.entries, (image e).length = n := fun e he => (hpack e he _ (himage e he)).1
    have hread : ∀ e ∈ x.entries, ∀ y rest, (walker n unpack key).read y (image e ++ rest) =
        .ok (y.insert (key (decoded (image e))) (decoded (image e))) := fun e he y rest => by
      show (do let e ← unpack ((image e ++ rest).take n); return y.insert (key e) e) = _
      rw [List.take_left' (hlength e he), hunpack _ (hlength e he)]
      rfl
    have hencode := Tlv.Walker.walk_encode (W := walker n unpack key) (fun e he => (hmax.trans (hlength e he).symm).le)
      (fun e he rest => hmax.trans (hlength e he).symm) hread Omap.empty []
    have hend := hencode.trans (Tlv.Walker.walk_short (Nat.lt_of_lt_of_le Nat.zero_lt_one (le_max_left 1 n)))
    rw [List.append_nil] at hend
    rw [hend, Store.build, List.foldl_map]
    rfl
  have hcome : (∀ e ∈ x.entries, pack e.2 (.replicate n 0) = .ok (image e)) →
      ((∀ k, (Omap.store.build (x.entries.map fun e => (key (decoded (image e)), decoded (image e)))).find? k =
        (x.find? k).map carried) ↔ ∀ e ∈ x.entries, decoded (image e) = carried e.2) := fun himage => by
    have hlists := (x.map fun _ e => carried e).lists_entries
    have hident : ∀ e ∈ (x.map fun _ e => carried e).entries, key e.2 = e.1 := by
      intro p hp
      obtain ⟨e, he, rfl⟩ := List.mem_map.mp hp
      exact hkey e he
    have hmap : x.entries.map (fun e => (e.1, carried e.2)) = (x.map fun _ e => carried e).entries := rfl
    have hkeep : ∀ e ∈ x.entries, key (key (decoded (image e)), decoded (image e)).2 = (e.1, carried e.2).1 :=
      fun e he => (hpack e he _ (himage e he)).2
    have hiff := Store.build_eq_iff hlists hmap hident hkeep
    have hfind : ∀ k, Omap.store.find (x.map fun _ e => carried e) k = (x.find? k).map carried := fun k =>
      x.find?_map (fun _ e => carried e) k
    simp only [hfind] at hiff
    refine hiff.trans ⟨fun h e he => (Prod.mk.inj (h e he)).2, fun h e he => ?_⟩
    rw [(hpack e he _ (himage e he)).2, h e he]
  have himage : ∀ {e : ℕ × ε} {buf}, pack e.2 (.replicate n 0) = .ok buf → image e = buf := fun h => by
    show (pack _ _).toOption.getD [] = _
    rw [h]
    rfl
  have hpackAll : (∀ e ∈ x.entries, pack e.2 (.replicate n 0) = .ok (image e)) →
      Tlv.packAll (fun e => size e.2) (fun e => pack e.2) x.entries
        (.replicate (x.entries.map fun e => size e.2).sum 0) = .ok (x.entries.flatMap image) := fun hall => by
    have hzeros : ∀ e ∈ x.entries, pack e.2 (.replicate (size e.2) 0) = .ok (image e) := fun e he => by
      rw [hsize e he]
      exact hall e he
    have hreplicate := Tlv.packAll_replicate (z := (0 : UInt8)) hzeros 0
    simpa using hreplicate
  constructor
  · rintro ⟨buf, y, hbuf, hy, hfind⟩
    have hall : ∀ e ∈ x.entries, pack e.2 (.replicate n 0) = .ok (image e) := by
      intro e he
      obtain ⟨octets, hoctets⟩ := Tlv.packAll_replicate_ok (n := 0) hbuf e he
      rw [hsize e he] at hoctets
      rw [himage hoctets, hoctets]
    rw [hpackAll hall, Except.ok.injEq] at hbuf
    rw [← hbuf, hwalk hall, Except.ok.injEq] at hy
    rw [← hy] at hfind
    exact fun e he => ⟨image e, hall e he, (hcome hall).mp hfind e he⟩
  · intro h
    have hall : ∀ e ∈ x.entries, pack e.2 (.replicate n 0) = .ok (image e) := by
      intro e he
      obtain ⟨buf, hbuf, -⟩ := h e he
      rw [himage hbuf, hbuf]
    refine ⟨_, _, hpackAll hall, hwalk hall, (hcome hall).mpr fun e he => ?_⟩
    obtain ⟨buf, hbuf, hdecoded⟩ := h e he
    rw [himage hbuf, hdecoded]

end TextArray

end RoflCommon
