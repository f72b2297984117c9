/-
Lists of elements that carry their own length, read one after another. The
reader of an element is handed all that is left of the list and takes the
element into the state; how far the walk then goes is up to the length the
element gives. It ends where less than a header is left, or less than what the
length asks for.

`walk_eq` is one turn of the loop, `walk_encode` reads a list of encoded
elements in front of anything else, `walk_replicate` skips padding, and
`walk_rule` is the rule for properties of the state. `elements` are the places
where elements are read, and `walk_eq_foldlM` takes the walk for a fold of the
reader over them. `packAll` writes elements one after another, each into its
slot (`packAll_eq`), and `packAll_replicate` says what becomes of a blank buffer.
-/
import Mathlib.Algebra.Order.Ring.Nat
import Mathlib.Data.List.Basic
import Mathlib.Tactic.Common

namespace Tlv

variable {α σ ε : Type*}

/-- How a list is walked: no element is shorter than `header`, and its first
octets tell how long it is. -/
structure Walker (α σ ε : Type*) where
  header : ℕ
  header_pos : 0 < header
  size : List α → ℕ
  header_le : ∀ l, header ≤ size l
  read : σ → List α → Except ε σ

namespace Walker

variable (W : Walker α σ ε)

theorem max_pos (n : ℕ) : 0 < max 1 n := by omega

/-- The walk in so many turns at most. -/
def turns : ℕ → σ → List α → Except ε σ
  | 0, s, _ => .ok s
  | n + 1, s, l =>
    if l.length < W.header then .ok s
    else
      match W.read s l with
      | .error e => .error e
      | .ok s => if W.size l ≤ l.length then turns n s (l.drop (W.size l)) else .ok s

/-- An element has at least one symbol, so there are no more turns than symbols. -/
def walk (s : σ) (l : List α) : Except ε σ := W.turns l.length s l

variable {W}

theorem turns_add {n : ℕ} {l : List α} (h : l.length ≤ n) (k : ℕ) (s : σ) :
    W.turns (n + k) s l = W.turns n s l := by
  induction n generalizing l s with
  | zero =>
    have hpos := W.header_pos
    have hshort : l.length < W.header := by omega
    cases k with
    | zero => rfl
    | succ k => simp [turns, hshort]
  | succ n ih =>
    have hle := W.header_le l
    have hpos := W.header_pos
    have hdrop : (l.drop (W.size l)).length ≤ n := by
      rw [List.length_drop]
      omega
    rw [show n + 1 + k = n + k + 1 by omega, turns, turns]
    cases W.read s l with
    | error e => rfl
    | ok s => simp only [ih hdrop]

theorem walk_short {s : σ} {l : List α} (h : l.length < W.header) : W.walk s l = .ok s := by
  unfold walk
  cases hn : l.length with
  | zero => rfl
  | succ n => rw [turns, if_pos h]

theorem walk_eq {s : σ} {l : List α} (h : W.header ≤ l.length) :
    W.walk s l =
      match W.read s l with
      | .error e => .error e
      | .ok s => if W.size l ≤ l.length then W.walk s (l.drop (W.size l)) else .ok s := by
  have hpos := W.header_pos
  have hle := W.header_le l
  have hdrop : (l.drop (W.size l)).length ≤ l.length - 1 := by
    rw [List.length_drop]
    omega
  have hfuel : ∀ s, W.turns (l.length - 1) s (l.drop (W.size l)) = W.walk s (l.drop (W.size l)) := fun s => by
    unfold walk
    conv_lhs => rw [← Nat.add_sub_of_le hdrop]
    exact turns_add (Nat.le_refl _) _ s
  unfold walk
  rw [show l.length = l.length - 1 + 1 by omega, turns, if_neg (by omega)]
  cases W.read s l with
  | error e => rfl
  | ok s =>
    simp only [hfuel]
    rw [show l.length - 1 + 1 = l.length by omega]
    rfl

/-- One element in front of the rest. -/
theorem walk_append {s s' : σ} {e : List α} (rest : List α) (hheader : W.header ≤ e.length)
    (hsize : W.size (e ++ rest) = e.length) (hread : W.read s (e ++ rest) = .ok s') :
    W.walk s (e ++ rest) = W.walk s' rest := by
  have hlen : W.header ≤ (e ++ rest).length := by
    rw [List.length_append]
    omega
  rw [walk_eq hlen, hread, hsize]
  simp

/-- Encoded elements in front of the rest: each is taken into the state. -/
theorem walk_encode {β : Type*} {encode : β → List α} {put : σ → β → σ} {bs : List β}
    (hheader : ∀ b ∈ bs, W.header ≤ (encode b).length)
    (hsize : ∀ b ∈ bs, ∀ rest, W.size (encode b ++ rest) = (encode b).length)
    (hread : ∀ b ∈ bs, ∀ s rest, W.read s (encode b ++ rest) = .ok (put s b)) (s : σ) (rest : List α) :
    W.walk s (bs.flatMap encode ++ rest) = W.walk (bs.foldl put s) rest := by
  induction bs generalizing s with
  | nil => rfl
  | cons b bs ih =>
    have htail := ih (fun c hc => hheader c (by simp [hc])) (fun c hc => hsize c (by simp [hc]))
      fun c hc => hread c (by simp [hc])
    have hhead := walk_append (bs.flatMap encode ++ rest) (hheader b (by simp)) (hsize b (by simp) _)
      (hread b (by simp) s _)
    rw [List.flatMap_cons, List.append_assoc, hhead, htail, List.foldl_cons]

/-- Elements that say nothing are skipped. -/
theorem walk_replicate {z : α} (hread : ∀ n s, W.read s (.replicate n z) = .ok s) (n : ℕ) (s : σ) :
    W.walk s (.replicate n z) = .ok s := by
  induction n using Nat.strongRecOn with
  | ind n ih =>
    by_cases hshort : n < W.header
    · exact walk_short (by simpa using hshort)
    · have hle := W.header_le (.replicate n z)
      have hpos := W.header_pos
      rw [walk_eq (by simpa using hshort), hread n s, List.drop_replicate]
      dsimp only
      split
      · exact ih _ (by omega)
      · rfl

/-- What every element read preserves holds at the end of the walk. -/
theorem walk_rule {P : σ → Prop} (hread : ∀ s l s', P s → W.header ≤ l.length → W.read s l = .ok s' → P s')
    {s s' : σ} {l : List α} (hs : P s) (h : W.walk s l = .ok s') : P s' := by
  unfold walk at h
  generalize l.length = n at h
  induction n generalizing s l with
  | zero =>
    cases h
    exact hs
  | succ n ih =>
    rw [turns] at h
    split at h
    · cases h
      exact hs
    · next hlen =>
      cases hr : W.read s l with
      | error e => simp [hr] at h
      | ok t =>
        have ht := hread s l t hs (by omega) hr
        simp only [hr] at h
        split at h
        · exact ih ht h
        · cases h
          exact ht

/-! ### The places where elements are read -/

variable (W)

def suffixes : ℕ → List α → List (List α)
  | 0, _ => []
  | n + 1, l =>
    if l.length < W.header then []
    else l :: if W.size l ≤ l.length then suffixes n (l.drop (W.size l)) else []

/-- What is left of the list, at every element. -/
def elements (l : List α) : List (List α) := W.suffixes l.length l

variable {W}

theorem turns_eq_foldlM (n : ℕ) (s : σ) (l : List α) : W.turns n s l = (W.suffixes n l).foldlM W.read s := by
  induction n generalizing s l with
  | zero => rfl
  | succ n ih =>
    rw [turns, suffixes]
    split
    · rfl
    · rw [List.foldlM_cons]
      cases hread : W.read s l with
      | error e => rfl
      | ok t =>
        dsimp only
        split
        · exact ih t _
        · rfl

theorem walk_eq_foldlM (s : σ) (l : List α) : W.walk s l = (W.elements l).foldlM W.read s :=
  turns_eq_foldlM _ s l

theorem header_le_of_mem_suffixes {n : ℕ} {l e : List α} (h : e ∈ W.suffixes n l) : W.header ≤ e.length := by
  induction n generalizing l with
  | zero => cases h
  | succ n ih =>
    rw [suffixes] at h
    split at h
    · cases h
    · rcases List.mem_cons.mp h with rfl | h
      · omega
      · split at h
        · exact ih h
        · cases h

/-- At an element there is at least its header. -/
theorem header_le_of_mem {l e : List α} (h : e ∈ W.elements l) : W.header ≤ e.length := header_le_of_mem_suffixes h

theorem suffix_of_mem_suffixes {n : ℕ} {l e : List α} (h : e ∈ W.suffixes n l) : e <:+ l := by
  induction n generalizing l with
  | zero => cases h
  | succ n ih =>
    rw [suffixes] at h
    split at h
    · cases h
    · rcases List.mem_cons.mp h with rfl | h
      · exact List.suffix_refl _
      · split at h
        · exact (ih h).trans (List.drop_suffix _ _)
        · cases h

theorem suffix_of_mem {l e : List α} (h : e ∈ W.elements l) : e <:+ l := suffix_of_mem_suffixes h

end Walker

/-! ### Writing -/

variable {β : Type*}

/-- Elements into a buffer, each of which is handed as many symbols as it is long. -/
def packAll (size : β → ℕ) (pack : β → List α → Except ε (List α)) : List β → List α → Except ε (List α)
  | [], buf => .ok buf
  | b :: bs, buf => do return (← pack b (buf.take (size b))) ++ (← packAll size pack bs (buf.drop (size b)))

variable {size : β → ℕ} {pack : β → List α → Except ε (List α)} {encode : β → List α} {z : α}

theorem packAll_replicate {bs : List β} (h : ∀ b ∈ bs, pack b (.replicate (size b) z) = .ok (encode b)) (n : ℕ) :
    packAll size pack bs (.replicate ((bs.map size).sum + n) z) = .ok (bs.flatMap encode ++ .replicate n z) := by
  induction bs with
  | nil => simp [packAll]
  | cons b bs ih =>
    have htake : (List.replicate (((b :: bs).map size).sum + n) z).take (size b) = .replicate (size b) z := by
      rw [List.take_replicate, List.map_cons, List.sum_cons, Nat.min_eq_left (by omega)]
    have hdrop : (List.replicate (((b :: bs).map size).sum + n) z).drop (size b) =
        .replicate ((bs.map size).sum + n) z := by
      rw [List.drop_replicate, List.map_cons, List.sum_cons]
      congr 1
      omega
    rw [packAll, htake, hdrop, h b (by simp), ih fun c hc => h c (by simp [hc])]
    simp only [List.flatMap_cons, List.append_assoc]
    rfl

theorem packAll_replicate_ok {bs : List β} {n : ℕ} {out : List α}
    (h : packAll size pack bs (.replicate ((bs.map size).sum + n) z) = .ok out) :
    ∀ b ∈ bs, ∃ octets, pack b (.replicate (size b) z) = .ok octets := by
  induction bs generalizing out with
  | nil => exact fun b hb => absurd hb List.not_mem_nil
  | cons b bs ih =>
    have htake : (List.replicate (((b :: bs).map size).sum + n) z).take (size b) = .replicate (size b) z := by
      rw [List.take_replicate, List.map_cons, List.sum_cons, Nat.min_eq_left (by omega)]
    have hdrop : (List.replicate (((b :: bs).map size).sum + n) z).drop (size b) =
        .replicate ((bs.map size).sum + n) z := by
      rw [List.drop_replicate, List.map_cons, List.sum_cons]
      congr 1
      omega
    rw [packAll, htake, hdrop] at h
    cases hpack : pack b (.replicate (size b) z) with
    | error e =>
      rw [hpack] at h
      cases h
    | ok octets =>
      cases hrest : packAll size pack bs (.replicate ((bs.map size).sum + n) z) with
      | error e =>
        rw [hpack, hrest] at h
        cases h
      | ok rest =>
        intro c hc
        rcases List.mem_cons.mp hc with rfl | hc
        · exact ⟨octets, hpack⟩
        · exact ih hrest c hc

/-- Each element with the part of the buffer it is handed. -/
def slots (size : β → ℕ) : List β → List α → List (β × List α)
  | [], _ => []
  | b :: bs, buf => (b, buf.take (size b)) :: slots size bs (buf.drop (size b))

theorem map_slots (bs : List β) (buf : List α) : (slots size bs buf).map Prod.fst = bs := by
  induction bs generalizing buf with
  | nil => rfl
  | cons b bs ih => rw [slots, List.map_cons, ih]

theorem length_slot {bs : List β} {buf : List α} (h : (bs.map size).sum ≤ buf.length) :
    ∀ p ∈ slots size bs buf, p.2.length = size p.1 := by
  induction bs generalizing buf with
  | nil => exact fun p hp => absurd hp List.not_mem_nil
  | cons b bs ih =>
    rw [List.map_cons, List.sum_cons] at h
    intro p hp
    rcases List.mem_cons.mp hp with rfl | hp
    · exact List.length_take_of_le (by omega)
    · refine ih ?_ p hp
      rw [List.length_drop]
      omega

/-- What is behind the slots is not handed out. -/
theorem slots_take {bs : List β} {buf : List α} {n : ℕ} (h : (bs.map size).sum ≤ n) :
    slots size bs (buf.take n) = slots size bs buf := by
  induction bs generalizing buf n with
  | nil => rfl
  | cons b bs ih =>
    rw [List.map_cons, List.sum_cons] at h
    rw [slots, slots, List.take_take, Nat.min_eq_left (by omega), List.drop_take, ih (by omega)]

theorem length_flatMap_slots {image : β × List α → List α} {bs : List β} {buf : List α}
    (h : ∀ p ∈ slots size bs buf, (image p).length = size p.1) :
    ((slots size bs buf).flatMap image).length = (bs.map size).sum := by
  induction bs generalizing buf with
  | nil => rfl
  | cons b bs ih =>
    have hhead := h (b, buf.take (size b)) (by simp [slots])
    have htail := @ih (buf.drop (size b)) fun p hp => h p (by simp [slots, hp])
    rw [slots, List.flatMap_cons, List.length_append, hhead, htail, List.map_cons, List.sum_cons]

theorem packAll_eq {encode : β × List α → List α} {bs : List β} {buf : List α} (hbuf : buf.length ≤ (bs.map size).sum)
    (h : ∀ p ∈ slots size bs buf, pack p.1 p.2 = .ok (encode p)) :
    packAll size pack bs buf = .ok ((slots size bs buf).flatMap encode) := by
  induction bs generalizing buf with
  | nil =>
    rw [List.eq_nil_of_length_eq_zero (Nat.le_zero.mp hbuf)]
    rfl
  | cons b bs ih =>
    rw [List.map_cons, List.sum_cons] at hbuf
    have hdrop : (buf.drop (size b)).length ≤ (bs.map size).sum := by
      rw [List.length_drop]
      omega
    have htail := ih hdrop fun p hp => h p (by simp [slots, hp])
    rw [packAll, h (b, buf.take (size b)) (by simp [slots]), htail]
    rfl

end Tlv
