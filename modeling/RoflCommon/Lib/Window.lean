/-
Decoders in C: a pointer, and how many octets there are behind it, which is the word of
the caller. A decoder gets the memory from the pointer on, and that may end before; a
read behind its end is an overrun.

`Within n d` says that `d` keeps to the first `n` octets: where there are that many it
does not overrun, and no others count. `KeepsTo.bind`, `Within.drop` and `within_loop` put
such decoders together. A loop that is handed just what there is is one of `Loop`
(`loop_eq`). Encoders get the memory as well, and may write behind what they are to fill;
`packAll_eq` is for a list of those that do not.
-/
import RoflCommon.Lib.Loop
import RoflCommon.Lib.Record
import RoflCommon.Lib.Tlv

/-- An exception of the program, or a read outside of memory. -/
inductive Fault (ε : Type*)
  | thrown (e : ε)
  | overrun
deriving DecidableEq, Repr

namespace Window

universe u

variable {α σ ε : Type*} {β γ : Type u}

def read (buf : List α) (off n : ℕ) : Except (Fault ε) (List α) :=
  if off + n ≤ buf.length then .ok ((buf.drop off).take n) else .error .overrun

def raise (e : ε) : Except (Fault ε) β := .error (.thrown e)

theorem read_eq {buf : List α} {off n : ℕ} (h : off + n ≤ buf.length) :
    (read buf off n : Except (Fault ε) (List α)) = .ok ((buf.drop off).take n) := if_pos h

theorem read_short {buf : List α} {off n : ℕ} (h : buf.length < off + n) :
    (read buf off n : Except (Fault ε) (List α)) = .error .overrun := if_neg (by omega)

/-- In this memory only the first `n` octets are read. -/
structure KeepsTo (n : ℕ) (d : List α → Except (Fault ε) β) (buf : List α) : Prop where
  inside : d buf ≠ .error .overrun
  take : d (buf.take n) = d buf

/-- Only the first `n` octets are read. -/
def Within (n : ℕ) (d : List α → Except (Fault ε) β) : Prop := ∀ buf, n ≤ buf.length → KeepsTo n d buf

variable {n m k : ℕ} {d d' : List α → Except (Fault ε) β} {buf : List α}

namespace KeepsTo

theorem const {r : Except (Fault ε) β} (hr : r ≠ .error .overrun) : KeepsTo n (fun _ => r) buf := ⟨hr, rfl⟩

theorem ok (b : β) : KeepsTo n (fun _ => (.ok b : Except (Fault ε) β)) buf := const fun h => by cases h

theorem raise (e : ε) : KeepsTo n (fun _ => (Window.raise e : Except (Fault ε) β)) buf := const fun h => by cases h

theorem read (hn : n ≤ buf.length) {off : ℕ} (h : off + k ≤ n) :
    KeepsTo n (fun buf => (Window.read buf off k : Except (Fault ε) (List α))) buf := by
  have htake : off + k ≤ (buf.take n).length := by
    rw [List.length_take]
    omega
  constructor
  · rw [read_eq (by omega)]
    intro h
    cases h
  · rw [read_eq htake, read_eq (by omega), List.drop_take, List.take_take, Nat.min_eq_left (by omega)]

theorem bind {f : β → List α → Except (Fault ε) γ} (hd : KeepsTo n d buf)
    (hf : ∀ b, d buf = .ok b → KeepsTo n (f b) buf) : KeepsTo n (fun buf => d buf >>= fun b => f b buf) buf := by
  cases hb : d buf with
  | error e =>
    have hne := hd.inside
    rw [hb] at hne
    constructor
    · rw [hb]
      exact fun he => hne (congrArg _ (Except.error.inj he))
    · rw [hd.take, hb]
      rfl
  | ok b =>
    have hb' := hf b hb
    constructor
    · rw [hb]
      exact hb'.inside
    · rw [hd.take, hb]
      exact hb'.take

theorem ite {p : Prop} [Decidable p] (h : p → KeepsTo n d buf) (h' : ¬p → KeepsTo n d' buf) :
    KeepsTo n (fun buf => if p then d buf else d' buf) buf := by
  by_cases hp : p
  · simp only [if_pos hp]
    exact h hp
  · simp only [if_neg hp]
    exact h' hp

end KeepsTo

namespace Within

theorem mono (h : Within m d) (hmn : m ≤ n) : Within n d := by
  intro buf hn
  have htake : m ≤ (buf.take n).length := by
    rw [List.length_take]
    omega
  refine ⟨(h buf (by omega)).inside, ?_⟩
  rw [← (h _ htake).take, List.take_take, Nat.min_eq_left hmn, (h buf (by omega)).take]

theorem drop (h : Within m d) (hk : k + m ≤ n) : Within n fun buf => d (buf.drop k) := by
  intro buf hn
  have hdrop : n - k ≤ (buf.drop k).length := by
    rw [List.length_drop]
    omega
  have hwindow := h.mono (by omega : m ≤ n - k) (buf.drop k) hdrop
  refine ⟨hwindow.inside, ?_⟩
  rw [List.drop_take]
  exact hwindow.take

end Within

/-! ## Numbers and records -/

open Octets

def numberAt (buf : List UInt8) (off n : ℕ) : Except (Fault ε) ℕ := number <$> read buf off n

theorem numberAt_eq {buf : List UInt8} {off n : ℕ} (h : off + n ≤ buf.length) :
    (numberAt buf off n : Except (Fault ε) ℕ) = .ok (field buf off n) := by
  rw [numberAt, read_eq h]
  rfl

theorem numberAt_short {buf : List UInt8} {off n : ℕ} (h : buf.length < off + n) :
    (numberAt buf off n : Except (Fault ε) ℕ) = .error .overrun := by
  rw [numberAt, read_short h]
  rfl

theorem KeepsTo.numberAt {buf : List UInt8} (hn : n ≤ buf.length) {off : ℕ} (h : off + k ≤ n) :
    KeepsTo n (fun buf => (Window.numberAt buf off k : Except (Fault ε) ℕ)) buf := by
  have htake : off + k ≤ (buf.take n).length := by
    rw [List.length_take]
    omega
  constructor
  · rw [numberAt_eq (by omega)]
    intro h
    cases h
  · rw [numberAt_eq htake, numberAt_eq (by omega), field_take h]

/-- The fields of a record; what stands between them is not read. -/
def record : Record.Layout → List UInt8 → Except (Fault ε) (List ℕ)
  | [], _ => .ok []
  | .pad n :: l, buf => record l (buf.drop n)
  | .field n :: l, buf => do
    let v ← numberAt buf 0 n
    return v :: (← record l (buf.drop n))

theorem record_eq {l : Record.Layout} {buf : List UInt8} (h : Record.size l ≤ buf.length) :
    (record l buf : Except (Fault ε) (List ℕ)) = .ok (Record.read l buf) := by
  induction l generalizing buf with
  | nil => rfl
  | cons s l ih =>
    rw [Record.size_cons] at h
    have hdrop : Record.size l ≤ (buf.drop s.size).length := by
      rw [List.length_drop]
      omega
    cases s with
    | pad n => exact ih hdrop
    | field n =>
      have hfield : 0 + n ≤ buf.length := by
        rw [Record.Slot.size] at h
        omega
      have htail := ih hdrop
      rw [Record.Slot.size] at htail
      rw [record, numberAt_eq hfield, htail]
      rfl

theorem KeepsTo.record {buf : List UInt8} (hn : n ≤ buf.length) {l : Record.Layout} (h : Record.size l ≤ n) :
    KeepsTo n (fun buf => (Window.record l buf : Except (Fault ε) (List ℕ))) buf := by
  have htake : Record.size l ≤ (buf.take n).length := by
    rw [List.length_take]
    omega
  constructor
  · rw [record_eq (by omega)]
    intro h
    cases h
  · rw [record_eq htake, record_eq (by omega), ← Record.read_append htake (buf.drop n), List.take_append_drop]

/-! ## What is thrown -/

/-- It throws, and that before it reads outside of memory. -/
def Throws (r : Except (Fault ε) β) : Prop := ∃ e, r = .error (.thrown e)

@[simp] theorem throws_raise (e : ε) : Throws (raise e : Except (Fault ε) β) := ⟨e, rfl⟩

@[simp] theorem not_throws_ok (b : β) : ¬Throws (.ok b : Except (Fault ε) β) := fun ⟨_, h⟩ => by cases h

@[simp] theorem not_throws_overrun : ¬Throws (.error .overrun : Except (Fault ε) β) := fun ⟨_, h⟩ => by cases h

theorem Throws.ne_overrun {r : Except (Fault ε) β} (h : Throws r) : r ≠ .error .overrun := by
  rintro rfl
  exact not_throws_overrun h

theorem throws_bind {x : Except (Fault ε) β} {f : β → Except (Fault ε) γ} :
    Throws (x >>= f) ↔ Throws x ∨ ∃ b, x = .ok b ∧ Throws (f b) := by
  cases x with
  | error e =>
    constructor
    · rintro ⟨e', he⟩
      exact .inl ⟨e', congrArg _ (Except.error.inj he)⟩
    · rintro (⟨e', he⟩ | ⟨b, hb, _⟩)
      · exact ⟨e', congrArg _ (Except.error.inj he)⟩
      · cases hb
  | ok b =>
    constructor
    · exact fun h => .inr ⟨b, rfl, h⟩
    · rintro (⟨e', he⟩ | ⟨b', hb, h⟩)
      · cases he
      · cases hb
        exact h

theorem throws_ite {p : Prop} [Decidable p] {x y : Except (Fault ε) β} :
    Throws (if p then x else y) ↔ p ∧ Throws x ∨ ¬p ∧ Throws y := by
  by_cases hp : p
  · simp [hp]
  · simp [hp]

theorem throws_read {buf : List UInt8} {off k : ℕ} {δ : Type} {f : List UInt8 → Except (Fault ε) δ} :
    Throws (read buf off k >>= f) ↔ off + k ≤ buf.length ∧ Throws (f ((buf.drop off).take k)) := by
  by_cases h : off + k ≤ buf.length
  · rw [read_eq h]
    exact (and_iff_right h).symm
  · rw [read_short (by omega)]
    exact ⟨fun hr => absurd hr not_throws_overrun, fun hr => absurd hr.1 h⟩

theorem throws_numberAt {buf : List UInt8} {off k : ℕ} {δ : Type} {f : ℕ → Except (Fault ε) δ} :
    Throws (numberAt buf off k >>= f) ↔ off + k ≤ buf.length ∧ Throws (f (field buf off k)) := by
  by_cases h : off + k ≤ buf.length
  · rw [numberAt_eq h]
    exact (and_iff_right h).symm
  · rw [numberAt_short (by omega)]
    exact ⟨fun hr => absurd hr not_throws_overrun, fun hr => absurd hr.1 h⟩

/-- Reading a record does not throw. -/
theorem not_throws_record (l : Record.Layout) (buf : List UInt8) :
    ¬Throws (record l buf : Except (Fault ε) (List ℕ)) := by
  induction l generalizing buf with
  | nil => exact not_throws_ok _
  | cons s l ih =>
    cases s with
    | pad n => exact ih _
    | field n =>
      rw [record, throws_numberAt, throws_bind]
      rintro ⟨_, h | ⟨vs, _, h⟩⟩
      · exact ih _ h
      · exact not_throws_ok _ h

/-- The same, for a caller with other exceptions. -/
def rethrow {ε' : Type*} (f : ε → ε') : Except (Fault ε) β → Except (Fault ε') β
  | .ok b => .ok b
  | .error .overrun => .error .overrun
  | .error (.thrown e) => raise (f e)

section

variable {ε' : Type*} {f : ε → ε'} {r : Except (Fault ε) β}

theorem rethrow_eq_overrun : rethrow f r = .error .overrun ↔ r = .error .overrun := by
  match r with
  | .ok b => exact ⟨fun h => (by cases h), fun h => by cases h⟩
  | .error .overrun => exact ⟨fun _ => rfl, fun _ => rfl⟩
  | .error (.thrown e) => exact ⟨fun h => (by cases h), fun h => by cases h⟩

theorem rethrow_eq_ok {b : β} : rethrow f r = .ok b ↔ r = .ok b := by
  match r with
  | .ok a => exact ⟨fun h => congrArg Except.ok (Except.ok.inj h), fun h => congrArg Except.ok (Except.ok.inj h)⟩
  | .error .overrun => exact ⟨fun h => (by cases h), fun h => by cases h⟩
  | .error (.thrown e) => exact ⟨fun h => (by cases h), fun h => by cases h⟩

theorem throws_rethrow : Throws (rethrow f r) ↔ Throws r := by
  match r with
  | .ok b => exact ⟨fun h => absurd h (not_throws_ok _), fun h => absurd h (not_throws_ok _)⟩
  | .error .overrun => exact ⟨fun h => absurd h not_throws_overrun, fun h => absurd h not_throws_overrun⟩
  | .error (.thrown e) => exact ⟨fun _ => ⟨e, rfl⟩, fun _ => throws_raise _⟩

theorem KeepsTo.rethrow (h : KeepsTo n d buf) (f : ε → ε') : KeepsTo n (fun buf => Window.rethrow f (d buf)) buf :=
  ⟨fun ho => h.inside (rethrow_eq_overrun.mp ho), by rw [h.take]⟩

end

/-! ## Loops -/

/-- `some (s, m)` goes on in `s` behind the first `m` octets, `none` ends. -/
abbrev Turn (α σ ε : Type*) := σ → List α → ℕ → Except (Fault ε) (Option (σ × ℕ))

def run (turn : Turn α σ ε) : ℕ → σ → List α → ℕ → Except (Fault ε) σ
  | 0, s, _, _ => .ok s
  | k + 1, s, buf, n =>
    match turn s buf n with
    | .error e => .error e
    | .ok none => .ok s
    | .ok (some (s', m)) => run turn k s' (buf.drop m) (n - m)

/-- The loop over `n` octets, in one turn more than there are. -/
def loop (turn : Turn α σ ε) (s : σ) (buf : List α) (n : ℕ) : Except (Fault ε) σ := run turn (n + 1) s buf n

/-- A turn that goes on takes something off, and not more than it is handed. -/
def Advances (turn : Turn α σ ε) : Prop :=
  ∀ s buf n s' m, turn s buf n = .ok (some (s', m)) → 0 < m ∧ m ≤ n

variable {turn : Turn α σ ε}

theorem run_add (hturn : Advances turn) {n k : ℕ} (h : n < k) (j : ℕ) (s : σ) (buf : List α) :
    run turn (k + j) s buf n = run turn k s buf n := by
  induction k generalizing n s buf with
  | zero => omega
  | succ k ih =>
    rw [show k + 1 + j = k + j + 1 by omega, run, run]
    cases ht : turn s buf n with
    | error e => rfl
    | ok r =>
      cases r with
      | none => rfl
      | some p =>
        obtain ⟨hpos, hle⟩ := hturn s buf n p.1 p.2 ht
        exact ih (by omega) p.1 _

theorem loop_end {s : σ} {buf : List α} {n : ℕ} (h : turn s buf n = .ok none) : loop turn s buf n = .ok s := by
  rw [loop, run, h]

theorem loop_error {s : σ} {buf : List α} {n : ℕ} {e : Fault ε} (h : turn s buf n = .error e) :
    loop turn s buf n = .error e := by
  rw [loop, run, h]

theorem loop_next (hturn : Advances turn) {s s' : σ} {buf : List α} {n m : ℕ} (h : turn s buf n = .ok (some (s', m))) :
    loop turn s buf n = loop turn s' (buf.drop m) (n - m) := by
  obtain ⟨hpos, hle⟩ := hturn s buf n s' m h
  rw [loop, run, h]
  dsimp only
  rw [show n = n - m + 1 + (m - 1) by omega, run_add hturn (by omega), loop]
  congr 1
  omega

/-- Encoded elements in front of the rest: each of them is taken into the state. -/
theorem loop_encode (hturn : Advances turn) {δ : Type*} {encode : δ → List α} {put : σ → δ → σ} {bs : List δ}
    (h : ∀ b ∈ bs, ∀ s rest n, turn s (encode b ++ rest) ((encode b).length + n) =
      .ok (some (put s b, (encode b).length))) (s : σ) (rest : List α) (n : ℕ) :
    loop turn s (bs.flatMap encode ++ rest) ((bs.flatMap encode).length + n) = loop turn (bs.foldl put s) rest n := by
  induction bs generalizing s with
  | nil => rw [List.flatMap_nil, List.nil_append, List.length_nil, Nat.zero_add, List.foldl_nil]
  | cons b bs ih =>
    have hhead := h b List.mem_cons_self s (bs.flatMap encode ++ rest) ((bs.flatMap encode).length + n)
    have htail := ih (fun c hc => h c (List.mem_cons_of_mem b hc)) (put s b)
    rw [List.flatMap_cons, List.append_assoc, List.length_append, Nat.add_assoc, loop_next hturn hhead, List.drop_left,
      Nat.add_sub_cancel_left, htail, List.foldl_cons]

theorem within_run (hturn : Advances turn) (h : ∀ s n, Within n fun buf => turn s buf n) (k n : ℕ) (s : σ) :
    Within n fun buf => run turn k s buf n := by
  induction k generalizing s n with
  | zero => exact fun _ _ => .ok s
  | succ k ih =>
    intro buf hn
    have hrun : ∀ buf, run turn (k + 1) s buf n = turn s buf n >>= fun r =>
        match r with
        | none => .ok s
        | some (s', m) => run turn k s' (buf.drop m) (n - m) := by
      intro buf
      rw [run]
      cases turn s buf n with
      | error e => rfl
      | ok r => rcases r with _ | ⟨s', m⟩ <;> rfl
    simp only [hrun]
    refine (h s n buf hn).bind fun r hr => ?_
    rcases r with _ | ⟨s', m⟩
    · exact .ok s
    · obtain ⟨hpos, hle⟩ := hturn s buf n s' m hr
      exact (ih (n - m) s').drop (by omega) buf hn

theorem within_loop (hturn : Advances turn) (h : ∀ s n, Within n fun buf => turn s buf n) (n : ℕ) (s : σ) :
    Within n fun buf => loop turn s buf n := within_run hturn h (n + 1) n s

/-- What every turn keeps, of the state and of what is left, holds at the end. -/
theorem loop_rule {P : σ → ℕ → Prop}
    (hstep : ∀ s buf n s' m, P s n → turn s buf n = .ok (some (s', m)) → P s' (n - m)) {s s' : σ} {buf : List α} {n : ℕ}
    (hs : P s n) (h : loop turn s buf n = .ok s') : ∃ m, P s' m := by
  unfold loop at h
  generalize n + 1 = k at h
  induction k generalizing s buf n with
  | zero =>
    cases h
    exact ⟨n, hs⟩
  | succ k ih =>
    rw [run] at h
    cases ht : turn s buf n with
    | error e =>
      rw [ht] at h
      cases h
    | ok r =>
      rcases r with _ | ⟨s₁, m⟩
      · rw [ht] at h
        cases h
        exact ⟨n, hs⟩
      · rw [ht] at h
        exact ih (hstep s buf n s₁ m hs ht) h

/-- A loop that is handed all there is. -/
theorem loop_eq (s : σ) (buf : List α) :
    loop turn s buf buf.length = Loop.loop (fun s l => turn s l l.length) s buf := by
  unfold loop Loop.loop
  generalize buf.length + 1 = k
  induction k generalizing s buf with
  | zero => rfl
  | succ k ih =>
    rw [run, Loop.run]
    cases turn s buf buf.length with
    | error e => rfl
    | ok r =>
      cases r with
      | none => rfl
      | some p =>
        have hdrop := ih p.1 (buf.drop p.2)
        rw [List.length_drop] at hdrop
        exact hdrop

/-! ## Writing -/

/-- `memcpy` to an offset. -/
def write (buf : List α) (off : ℕ) (src : List α) : Except (Fault ε) (List α) :=
  if off + src.length ≤ buf.length then .ok (buf.take off ++ src ++ buf.drop (off + src.length)) else .error .overrun

theorem write_eq {buf src : List α} {off : ℕ} (h : off + src.length ≤ buf.length) :
    (write buf off src : Except (Fault ε) (List α)) = .ok (buf.take off ++ src ++ buf.drop (off + src.length)) := if_pos h

theorem write_append {a t src : List α} (h : src.length ≤ t.length) :
    (write (a ++ t) a.length src : Except (Fault ε) (List α)) = .ok (a ++ (src ++ t.drop src.length)) := by
  have hlen : a.length + src.length ≤ (a ++ t).length := by
    rw [List.length_append]
    omega
  rw [write_eq hlen, List.take_left, List.drop_length_add_append, List.append_assoc]

def writeRecord (l : Record.Layout) (vs : List ℕ) (buf : List UInt8) : Except (Fault ε) (List UInt8) :=
  if Record.size l ≤ buf.length then .ok (Record.write l vs buf) else .error .overrun

theorem writeRecord_eq {l : Record.Layout} (vs : List ℕ) {buf : List UInt8} (h : Record.size l ≤ buf.length) :
    (writeRecord l vs buf : Except (Fault ε) (List UInt8)) =
      .ok (Record.write l vs (buf.take (Record.size l)) ++ buf.drop (Record.size l)) := by
  rw [writeRecord, if_pos h, Record.write_split vs h]

/-- Lengths are added up from any number on. -/
theorem foldlM_add {f : β → Except ε ℕ} {bs : List β} {s n : ℕ} :
    bs.foldlM (fun n b => do return n + (← f b)) s = .ok n ↔
      ∃ k, bs.foldlM (fun n b => do return n + (← f b)) 0 = .ok k ∧ n = s + k := by
  induction bs generalizing s n with
  | nil =>
    constructor
    · intro h
      exact ⟨0, rfl, (Except.ok.inj h).symm⟩
    · rintro ⟨k, hk, rfl⟩
      cases hk
      rfl
  | cons b bs ih =>
    rw [List.foldlM_cons, List.foldlM_cons]
    cases f b with
    | error e => exact ⟨fun h => (by cases h), fun ⟨k, h, _⟩ => by cases h⟩
    | ok m =>
      show List.foldlM _ (s + m) bs = _ ↔ ∃ k, List.foldlM _ (0 + m) bs = _ ∧ _
      constructor
      · intro h
        obtain ⟨k, hk, rfl⟩ := ih.mp h
        exact ⟨m + k, ih.mpr ⟨k, hk, by omega⟩, by omega⟩
      · rintro ⟨k, hk, rfl⟩
        obtain ⟨k', hk', rfl⟩ := ih.mp hk
        exact ih.mpr ⟨k', hk', by omega⟩

theorem foldlM_add_cons {f : β → Except ε ℕ} {b : β} {bs : List β} {n : ℕ} :
    (b :: bs).foldlM (fun n b => do return n + (← f b)) 0 = .ok n ↔
      ∃ m k, f b = .ok m ∧ bs.foldlM (fun n b => do return n + (← f b)) 0 = .ok k ∧ n = m + k := by
  rw [List.foldlM_cons]
  cases f b with
  | error e => exact ⟨fun h => (by cases h), fun ⟨m, k, h, _⟩ => by cases h⟩
  | ok m =>
    show List.foldlM _ (0 + m) bs = _ ↔ _
    rw [foldlM_add, Nat.zero_add]
    constructor
    · rintro ⟨k, hk, rfl⟩
      exact ⟨m, k, rfl, hk, rfl⟩
    · rintro ⟨m', k, hm, hk, rfl⟩
      cases hm
      exact ⟨k, hk, rfl⟩

/-- Elements one behind another, each into the memory from an offset on. `next` is what
the offset can count. -/
def packAll (next : ℕ → ℕ) (size : β → ℕ) (pack : β → List α → Except (Fault ε) (List α)) :
    ℕ → List β → List α → Except (Fault ε) (List α)
  | _, [], buf => .ok buf
  | off, b :: bs, buf => do
    let rest ← pack b (buf.drop off)
    packAll next size pack (next (off + size b)) bs (buf.take off ++ rest)

/-- Elements that keep to their places each. -/
theorem packAll_eq {next : ℕ → ℕ} {size : β → ℕ} {pack : β → List α → Except (Fault ε) (List α)}
    {image : β × List α → List α} {bs : List β} {off : ℕ} {buf : List α}
    (hnext : ∀ n, n ≤ off + (bs.map size).sum → next n = n) (hbuf : off + (bs.map size).sum ≤ buf.length)
    (hlen : ∀ b ∈ bs, ∀ slot, slot.length = size b → (image (b, slot)).length = size b)
    (hpack : ∀ b ∈ bs, ∀ buf, size b ≤ buf.length → pack b buf = .ok (image (b, buf.take (size b)) ++ buf.drop (size b))) :
    packAll next size pack off bs buf = .ok (buf.take off ++
      ((Tlv.slots size bs (buf.drop off)).flatMap image ++ buf.drop (off + (bs.map size).sum))) := by
  induction bs generalizing off buf with
  | nil => simp [packAll, Tlv.slots]
  | cons b bs ih =>
    rw [List.map_cons, List.sum_cons] at hnext hbuf
    have hdrop : size b ≤ (buf.drop off).length := by
      rw [List.length_drop]
      omega
    have hslot : ((buf.drop off).take (size b)).length = size b := List.length_take_of_le hdrop
    have himage := hlen b List.mem_cons_self _ hslot
    have htake : (buf.take off).length = off := List.length_take_of_le (by omega)
    have hfront : (buf.take off ++ image (b, (buf.drop off).take (size b))).length = off + size b := by
      rw [List.length_append, htake, himage]
    have hrest : (buf.drop off).drop (size b) = buf.drop (off + size b) := List.drop_drop
    have htail := @ih (off + size b)
      (buf.take off ++ image (b, (buf.drop off).take (size b)) ++ buf.drop (off + size b))
      (fun n hn => hnext n (by omega)) (by rw [List.length_append, hfront, List.length_drop]; omega)
      (fun c hc => hlen c (List.mem_cons_of_mem b hc)) fun c hc => hpack c (List.mem_cons_of_mem b hc)
    have hbehind : ∀ k, (buf.take off ++ image (b, (buf.drop off).take (size b)) ++ buf.drop (off + size b)).drop
        (off + size b + k) = buf.drop (off + size b + k) := fun k => by
      rw [← List.drop_drop, List.drop_left' hfront, List.drop_drop]
    rw [List.take_left' hfront, List.drop_left' hfront, hbehind] at htail
    rw [packAll, hpack b List.mem_cons_self _ hdrop]
    dsimp only [bind, Except.bind]
    rw [hnext _ (by omega), hrest, ← List.append_assoc, htail, Tlv.slots, hrest, List.flatMap_cons, List.map_cons,
      List.sum_cons]
    simp only [List.append_assoc, Nat.add_assoc]

theorem packAll_start {next : ℕ → ℕ} {size : β → ℕ} {pack : β → List α → Except (Fault ε) (List α)}
    {image : β × List α → List α} {bs : List β} {buf : List α} (hnext : ∀ n, n ≤ (bs.map size).sum → next n = n)
    (hbuf : (bs.map size).sum ≤ buf.length)
    (hlen : ∀ b ∈ bs, ∀ slot, slot.length = size b → (image (b, slot)).length = size b)
    (hpack : ∀ b ∈ bs, ∀ buf, size b ≤ buf.length → pack b buf = .ok (image (b, buf.take (size b)) ++ buf.drop (size b))) :
    packAll next size pack 0 bs buf =
      .ok ((Tlv.slots size bs buf).flatMap image ++ buf.drop (bs.map size).sum) := by
  have hzero := @packAll_eq _ _ _ next size pack image bs 0 buf (fun n hn => hnext n (by omega)) (by omega) hlen hpack
  rwa [List.take_zero, List.drop_zero, List.nil_append, Nat.zero_add] at hzero

end Window
