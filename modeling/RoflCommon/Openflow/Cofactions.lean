/-
`cofactions`: the actions of a list, in the order of their indices, which `unpack` counts
from zero.

`unpack` keeps to the octets it is handed (`within_unpack`). Where there is less memory
than that, the octets that are there decide whether it throws before it leaves them
(`loop_thrown_iff`).
-/
import RoflCommon.Openflow.Cofaction
import RoflCommon.Openflow.OxmTlvs

namespace RoflCommon

open Octets Window

namespace Cofactions

/-- A turn of the loop of `unpack`. -/
def turn (v : UInt8) : Turn UInt8 (List Cofaction) CodecException := fun actions buf buflen =>
  if buflen < 8 then .ok none
  else do
    let type ← numberAt buf 0 2
    let len ← numberAt buf 2 2
    if len < 8 then return none
    else if buflen < len then raise .badActionBadLen
    else
      match ActionClass.ofType v type with
      | none => return some (actions, len)
      | some c => return some (actions ++ [← Cofaction.unpack v c buf len], len)

/-- Nothing is cleared where there is nothing to unpack. -/
def unpack (v : UInt8) (actions : List Cofaction) (buf : List UInt8) (buflen : ℕ) : Unpacked (List Cofaction) :=
  if buflen = 0 then .ok actions
  else if buflen < 8 then raise .invalid
  else loop (turn v) [] buf buflen

end Cofactions

/-! ## What is rejected -/

namespace Cofaction

/-- The OXM does not fit into the action, or is an experimenter's without the id or with a
value and a mask that differ in length. -/
def BadOxm (len : ℕ) (buf : List UInt8) : Prop :=
  let id := OxmId.ofOctets (buf.drop 4)
  let oxmLen := 4 + id.oxmLength.toNat
  8 ≤ buf.length ∧ (len - 4 < oxmLen ∨ id.oxmClass = Openflow.OFPXMC_EXPERIMENTER ∧
    (oxmLen < 8 ∨ 12 ≤ buf.length ∧ id.hasmask = true ∧ oxmLen % 2 = 1))

/-- The version does not know the action, its length is below that of its structure, or its
OXM is bad. -/
structure Rejects (v : UInt8) (c : ActionClass) (len : ℕ) (buf : List UInt8) : Prop where
  why : c.added v = false ∨ c.layout v = none ∨ (∃ l, c.layout v = some l ∧ len < Record.size l) ∨
    c = .setField ∧ BadOxm len buf

end Cofaction

namespace Cofactions

/-- Whole actions, and behind them one that is longer than what is left, or that is rejected. -/
inductive Rejected (v : UInt8) : ℕ → List UInt8 → Prop
  | long {n : ℕ} {buf : List UInt8} (hdr : 4 ≤ buf.length) (hn : 8 ≤ n) (hlen : n < field buf 2 2) : Rejected v n buf
  | action {n : ℕ} {buf : List UInt8} {c : ActionClass} (hdr : 4 ≤ buf.length) (hlen : 8 ≤ field buf 2 2)
      (hle : field buf 2 2 ≤ n) (hc : ActionClass.ofType v (field buf 0 2) = some c)
      (h : Cofaction.Rejects v c (field buf 2 2) buf) : Rejected v n buf
  | next {n : ℕ} {buf : List UInt8} (hlen : 8 ≤ field buf 2 2) (hle : field buf 2 2 ≤ n)
      (hin : field buf 2 2 ≤ buf.length) (hrest : Rejected v (n - field buf 2 2) (buf.drop (field buf 2 2))) :
      Rejected v n buf

end Cofactions

/-! ## One action -/

theorem throws_liftMatch {α : Type} {r : Except MatchException α} : Throws (liftMatch r) ↔ ∃ e, r = .error e := by
  cases r with
  | ok a => exact ⟨fun h => absurd h (not_throws_ok _), fun ⟨e, h⟩ => by cases h⟩
  | error e => exact ⟨fun _ => ⟨e, rfl⟩, fun _ => throws_raise _⟩

namespace SetFieldOxm

variable {buf : List UInt8} {n : ℕ}

theorem widthOf_eq {hasmask : Bool} {length : ℕ} {w : OxmWidth} (h : widthOf hasmask length = some w) :
    length = w.length hasmask := by
  unfold widthOf at h
  split at h <;> cases h <;> rfl

/-- An OXM of the length that its class asks for is not rejected. -/
theorem not_throws_new {w : OxmWidth} (hn : n = 4 + w.length (OxmId.ofOctets buf).hasmask) (hbuf : 4 ≤ buf.length) :
    ¬Throws ((new w).unpackAt buf n) := by
  have hid : OxmId.ofOctets ((buf.drop 0).take 4) = OxmId.ofOctets buf := by
    rw [List.drop_zero, OxmId.ofOctets_take hbuf (by omega)]
  unfold Coxmatch.unpackAt
  rw [if_neg (by omega), throws_read, hid]
  rintro ⟨_, h⟩
  simp only [new] at h
  rw [if_neg (by omega), throws_read, throws_liftMatch] at h
  obtain ⟨hlen, e, he⟩ := h
  have htake : OxmId.ofOctets (buf.take (4 + w.length (OxmId.ofOctets buf).hasmask)) = OxmId.ofOctets buf :=
    OxmId.ofOctets_take (by omega) (by omega)
  simp only [List.drop_zero, Coxmatch.unpack, htake, List.length_take] at he
  rw [if_neg (by omega), if_neg (by omega)] at he
  cases he

/-- Whole octets: a value, or a value and a mask of one length. -/
theorem unpack_newExp {l : List UInt8} (hlen : l.length = 4 + (OxmId.ofOctets l).oxmLength.toNat) (height : 8 ≤ l.length) :
    (∃ e, newExp.unpack l = .error e) ↔ (OxmId.ofOctets l).hasmask = true ∧ l.length % 2 = 1 := by
  have hlt := (OxmId.ofOctets l).oxmLength.toNat_lt
  have hbody : ((OxmId.ofOctets l).oxmLength.toNat + 18446744073709551612) % 18446744073709551616 = l.length - 8 := by
    omega
  simp only [newExp, Coxmatch.unpack, hbody]
  rw [if_neg (by omega), if_neg (by omega), if_neg (by omega)]
  have hassign : ∀ src n, n ≤ l.length → Cmemory.assign src n = .ok (src.take n) := fun src n hn =>
    Coxmatch.assign_eq_ok.mpr ⟨by omega, rfl⟩
  cases hmask : (OxmId.ofOctets l).hasmask with
  | false =>
    rw [if_pos (by rfl), hassign _ _ (by omega)]
    simp [bind, Except.bind, pure, Except.pure]
  | true =>
    rw [if_neg (by simp), hassign _ _ (by omega), hassign _ _ (by omega)]
    by_cases hodd : (l.length - 8) % 2 ≠ 0
    · rw [if_pos hodd]
      exact ⟨fun _ => ⟨rfl, by omega⟩, fun _ => ⟨_, rfl⟩⟩
    · rw [if_neg hodd]
      constructor
      · rintro ⟨e, he⟩
        cases he
      · rintro ⟨_, hone⟩
        omega

theorem throws_newExp (hn : n = 4 + (OxmId.ofOctets buf).oxmLength.toNat) (hbuf : 4 ≤ buf.length) :
    Throws (newExp.unpackAt buf n) ↔
      n < 8 ∨ 8 ≤ buf.length ∧ (OxmId.ofOctets buf).hasmask = true ∧ n % 2 = 1 := by
  have hid : OxmId.ofOctets ((buf.drop 0).take 4) = OxmId.ofOctets buf := by
    rw [List.drop_zero, OxmId.ofOctets_take hbuf (by omega)]
  unfold Coxmatch.unpackAt
  rw [if_neg (by omega), throws_read, hid]
  simp only [newExp]
  by_cases height : n < 8
  · simp [height, hbuf]
  rw [if_neg height, throws_read, if_neg (by omega), List.drop_zero, ← hn]
  by_cases hodd : n < 8 ∨ (OxmId.ofOctets buf).hasmask = true ∧ n % 2 = 1
  · have hmask := hodd.resolve_left height
    rw [if_pos hodd]
    by_cases hheader : 0 + 8 ≤ buf.length
    · have hlength : (buf.take 8 ++ List.replicate (n - 8) 0).length = n := by
        rw [List.length_append, List.length_take, List.length_replicate]
        omega
      have hid' : OxmId.ofOctets (buf.take 8 ++ List.replicate (n - 8) 0) = OxmId.ofOctets buf := by
        rw [OxmId.ofOctets_extend (by rw [List.length_take]; omega), OxmId.ofOctets_take (by omega) (by omega)]
      have hthrows := (unpack_newExp (l := buf.take 8 ++ List.replicate (n - 8) 0) (by rw [hlength, hid', hn])
        (by omega)).mpr (by rw [hid', hlength]; exact hmask)
      exact ⟨fun _ => .inr ⟨by omega, hmask⟩, fun _ => ⟨by omega, hheader, throws_liftMatch.mpr hthrows⟩⟩
    · exact ⟨fun h => absurd h.2.1 hheader, fun h => by omega⟩
  · rw [if_neg hodd, throws_read]
    constructor
    · rintro ⟨_, _, hlen, h⟩
      obtain ⟨e, he⟩ := throws_liftMatch.mp h
      rw [List.drop_zero] at he
      have hlength : (buf.take n).length = n := List.length_take_of_le (by omega)
      have hid' : OxmId.ofOctets (buf.take n) = OxmId.ofOctets buf := OxmId.ofOctets_take (by omega) (by omega)
      have hbad := (unpack_newExp (l := buf.take n) (by rw [hlength, hid', hn]) (by omega)).mp ⟨e, he⟩
      rw [hid', hlength] at hbad
      exact absurd (.inr hbad) hodd
    · rintro (h | ⟨_, h⟩)
      · exact absurd h height
      · exact absurd (.inr h) hodd

/-- The switches throw only for experimenter OXMs. -/
theorem throws_unpack (hbuf : 4 ≤ buf.length) (hn : n = 4 + (OxmId.ofOctets buf).oxmLength.toNat) :
    Throws (unpack (OxmId.ofOctets buf) buf n) ↔ (OxmId.ofOctets buf).oxmClass = Openflow.OFPXMC_EXPERIMENTER ∧
      (n < 8 ∨ 8 ≤ buf.length ∧ (OxmId.ofOctets buf).hasmask = true ∧ n % 2 = 1) := by
  unfold unpack
  by_cases hbasic : (OxmId.ofOctets buf).oxmClass ∈ [Openflow.OFPXMC_OPENFLOW_BASIC, Openflow.OFPXMC_PACKET_REGS]
  · have hclass : (OxmId.ofOctets buf).oxmClass ≠ Openflow.OFPXMC_EXPERIMENTER := by
      intro h
      rw [h] at hbasic
      exact absurd hbasic (by decide)
    rw [if_pos hbasic]
    refine ⟨fun h => ?_, fun h => absurd h.1 hclass⟩
    by_cases hzero : (OxmId.ofOctets buf).oxmLength = 0
    · rw [if_pos hzero, throws_read] at h
      exact absurd h.2 (not_throws_ok _)
    · rw [if_neg hzero] at h
      split at h
      · next w hw =>
        rw [throws_bind] at h
        rcases h with h | ⟨x, _, h⟩
        · exact absurd h (not_throws_new (by rw [hn, widthOf_eq hw]) hbuf)
        · exact absurd h (not_throws_ok _)
      · exact absurd h (not_throws_ok _)
  · rw [if_neg hbasic]
    by_cases hclass : (OxmId.ofOctets buf).oxmClass = Openflow.OFPXMC_EXPERIMENTER
    · rw [if_pos hclass, throws_bind, throws_newExp hn hbuf]
      constructor
      · rintro (h | ⟨x, _, h⟩)
        · exact ⟨hclass, h⟩
        · exact absurd h (not_throws_ok _)
      · exact fun h => .inl h.2
    · rw [if_neg hclass]
      exact ⟨fun h => absurd h (not_throws_ok _), fun h => absurd h.1 hclass⟩

end SetFieldOxm

namespace Cofaction

variable {v : UInt8} {c : ActionClass} {buf : List UInt8}

theorem throws_unpackSetField {len : ℕ} :
    Throws (unpackSetField len buf len) ↔ BadOxm len buf := by
  rw [unpackSetField, if_neg (lt_irrefl _), throws_read]
  by_cases height : 4 + 4 ≤ buf.length
  · have hdrop : 4 ≤ (buf.drop 4).length := by
      rw [List.length_drop]
      omega
    rw [OxmId.ofOctets_take hdrop (Nat.le_refl 4), throws_ite, throws_bind, SetFieldOxm.throws_unpack hdrop rfl,
      List.length_drop]
    have hok : ∀ x : SetFieldOxm, ¬Throws (.ok (.setField x) : Unpacked Cofaction) := fun _ => not_throws_ok _
    unfold BadOxm
    dsimp only
    constructor
    · rintro ⟨_, ⟨hlen, _⟩ | ⟨_, ⟨hclass, h⟩ | ⟨x, _, h⟩⟩⟩
      · exact ⟨height, .inl hlen⟩
      · exact ⟨height, .inr ⟨hclass, h.imp_right fun h => ⟨by omega, h.2⟩⟩⟩
      · exact absurd h (hok x)
    · rintro ⟨_, h⟩
      refine ⟨height, ?_⟩
      by_cases hlen : len - 4 < 4 + (OxmId.ofOctets (buf.drop 4)).oxmLength.toNat
      · exact .inl ⟨hlen, throws_raise _⟩
      · obtain ⟨hclass, h⟩ := h.resolve_left hlen
        exact .inr ⟨hlen, .inl ⟨hclass, h.imp_right fun h => ⟨by omega, h.2⟩⟩⟩
  · exact ⟨fun h => absurd h.1 height, fun h => absurd h.1 height⟩

theorem not_throws_unpackBody (len : ℕ) (buf : List UInt8) : ¬Throws (unpackBody len buf) := by
  rw [unpackBody, throws_ite]
  rintro (⟨_, e, h⟩ | ⟨_, h⟩)
  · unfold Window.read at h
    split at h <;> cases h
  · exact not_throws_ok _ h

theorem record_setField {l : Record.Layout} (hl : ActionClass.setField.layout v = some l) (hbuf : 4 ≤ buf.length) :
    ∃ vs, (record l buf : Unpacked (List ℕ)) = .ok vs := by
  unfold ActionClass.layout at hl
  split at hl
  · cases hl
    have hsecond : 0 + 2 ≤ (buf.drop 2).length := by
      rw [List.length_drop]
      omega
    refine ⟨[field buf 0 2, field (buf.drop 2) 0 2], ?_⟩
    show record [.field 2, .field 2, .pad 4] buf = _
    rw [record, numberAt_eq (by omega), record, numberAt_eq hsecond]
    rfl
  · cases hl

theorem throws_unpack (hbuf : 4 ≤ buf.length) (hlen : 8 ≤ field buf 2 2) :
    Throws (unpack v c buf (field buf 2 2)) ↔ Rejects v c (field buf 2 2) buf := by
  unfold unpack
  by_cases hadded : c.added v = false
  · rw [if_pos hadded]
    exact ⟨fun _ => ⟨.inl hadded⟩, fun _ => throws_raise _⟩
  rw [if_neg hadded]
  cases hl : c.layout v with
  | none => exact ⟨fun _ => ⟨.inr (.inl hl)⟩, fun _ => throws_raise _⟩
  | some l =>
    dsimp only
    by_cases hsize : field buf 2 2 < Record.size l
    · rw [if_pos hsize]
      exact ⟨fun _ => ⟨.inr (.inr (.inl ⟨l, hl, hsize⟩))⟩, fun _ => throws_raise _⟩
    have hwhy : Rejects v c (field buf 2 2) buf ↔ c = .setField ∧ BadOxm (field buf 2 2) buf := by
      constructor
      · rintro ⟨h | h | ⟨l', h, hlt⟩ | h⟩
        · exact absurd h hadded
        · rw [hl] at h
          cases h
        · rw [hl] at h
          cases h
          exact absurd hlt hsize
        · exact h
      · exact fun h => ⟨.inr (.inr (.inr h))⟩
    rw [if_neg hsize, header_eq hbuf, hwhy]
    show Throws (if field buf 2 2 < 4 then _ else _) ↔ _
    rw [if_neg (by omega)]
    have hnever : ∀ f : List ℕ → Unpacked Cofaction, (∀ vs, ¬Throws (f vs)) → ¬Throws (record l buf >>= f) := by
      intro f hf h
      rcases throws_bind.mp h with h | ⟨vs, _, h⟩
      · exact not_throws_record l buf h
      · exact hf vs h
    by_cases hc : c = .setField
    · subst hc
      obtain ⟨vs, hvs⟩ := record_setField hl hbuf
      rw [hvs, and_iff_right rfl]
      exact throws_unpackSetField
    · refine ⟨fun h => absurd h (hnever _ fun vs => ?_), fun h => absurd h.1 hc⟩
      cases c with
      | setField => exact absurd rfl hc
      | vendor =>
        rintro h
        rcases throws_bind.mp h with h | ⟨body, _, h⟩
        · exact not_throws_unpackBody _ buf h
        · exact not_throws_ok _ h
      | experimenter =>
        rintro h
        change Throws (if field buf 2 2 < field buf 2 2 then _ else _) at h
        rw [if_neg (lt_irrefl _)] at h
        rcases throws_bind.mp h with h | ⟨body, _, h⟩
        · exact not_throws_unpackBody _ buf h
        · exact not_throws_ok _ h
      | _ => exact not_throws_ok _

end Cofaction

/-! ## The list -/

namespace Cofactions

variable {v : UInt8}

theorem turn_eq_some {actions actions' : List Cofaction} {buf : List UInt8} {n m : ℕ}
    (h : turn v actions buf n = .ok (some (actions', m))) :
    8 ≤ n ∧ 4 ≤ buf.length ∧ m = field buf 2 2 ∧ 8 ≤ m ∧ m ≤ n := by
  unfold turn at h
  split at h
  · cases h
  · next hn =>
    obtain ⟨type, htype, h⟩ := Except.bind_eq_ok.mp h
    obtain ⟨len, hlen, h⟩ := Except.bind_eq_ok.mp h
    by_cases hbuf : 2 + 2 ≤ buf.length
    · rw [numberAt_eq hbuf] at hlen
      cases hlen
      split at h
      · cases h
      · next height =>
        split at h
        · cases h
        · next hle =>
          split at h
          · cases h
            exact ⟨by omega, hbuf, rfl, by omega, by omega⟩
          · obtain ⟨a, _, h⟩ := Except.bind_eq_ok.mp h
            cases h
            exact ⟨by omega, hbuf, rfl, by omega, by omega⟩
    · rw [numberAt_short (by omega)] at hlen
      cases hlen

theorem advances_turn : Advances (turn v) := by
  intro actions buf n actions' m h
  obtain ⟨-, -, -, height, hle⟩ := turn_eq_some h
  exact ⟨by omega, hle⟩

theorem within_turn (actions : List Cofaction) (n : ℕ) : Within n fun buf => turn v actions buf n := by
  intro buf hn
  unfold turn
  refine .ite (fun _ => .ok _) fun height => (KeepsTo.numberAt hn (by omega)).bind fun type _ =>
    (KeepsTo.numberAt hn (by omega)).bind fun len hlen => ?_
  rw [numberAt_eq (by omega)] at hlen
  cases hlen
  refine .ite (fun _ => .ok _) fun _ => .ite (fun _ => .raise _) fun hle => ?_
  cases ActionClass.ofType v type with
  | none => exact .ok _
  | some c => exact (Cofaction.keepsTo_unpack hn (by omega) (by omega)).bind fun a _ => .ok _

/-- `unpack` keeps to the octets it is handed. -/
theorem within_unpack (actions : List Cofaction) (n : ℕ) : Within n fun buf => unpack v actions buf n := by
  intro buf hn
  exact .ite (fun _ => .ok _) fun _ => .ite (fun _ => .raise _) fun _ =>
    within_loop advances_turn within_turn n [] buf hn

theorem throws_turn {actions : List Cofaction} {buf : List UInt8} {n : ℕ} :
    Throws (turn v actions buf n) ↔ 8 ≤ n ∧ 4 ≤ buf.length ∧ 8 ≤ field buf 2 2 ∧ (n < field buf 2 2 ∨
      ∃ c, ActionClass.ofType v (field buf 0 2) = some c ∧ Cofaction.Rejects v c (field buf 2 2) buf) := by
  unfold turn
  by_cases hn : n < 8
  · rw [if_pos hn]
    exact ⟨fun h => absurd h (not_throws_ok _), fun h => by omega⟩
  rw [if_neg hn, throws_numberAt, throws_numberAt]
  by_cases hbuf : 2 + 2 ≤ buf.length
  swap
  · exact ⟨fun h => absurd h.2.1 hbuf, fun h => absurd h.2.1 hbuf⟩
  by_cases height : field buf 2 2 < 8
  · rw [if_pos height]
    exact ⟨fun h => absurd h.2.2 (not_throws_ok _), fun h => by omega⟩
  rw [if_neg height]
  by_cases hle : n < field buf 2 2
  · rw [if_pos hle]
    exact ⟨fun _ => ⟨by omega, hbuf, by omega, .inl hle⟩, fun _ => ⟨by omega, hbuf, throws_raise _⟩⟩
  rw [if_neg hle]
  cases hc : ActionClass.ofType v (field buf 0 2) with
  | none =>
    refine ⟨fun h => absurd h.2.2 (not_throws_ok _), ?_⟩
    rintro ⟨_, _, _, h | ⟨c, h, _⟩⟩
    · exact absurd h hle
    · cases h
  | some c =>
    dsimp only
    rw [throws_bind, Cofaction.throws_unpack hbuf (by omega)]
    constructor
    · rintro ⟨_, _, h | ⟨a, _, h⟩⟩
      · exact ⟨by omega, hbuf, by omega, .inr ⟨c, rfl, h⟩⟩
      · exact absurd h (not_throws_ok _)
    · rintro ⟨_, _, _, h | ⟨c', hc', h⟩⟩
      · exact absurd h hle
      · cases hc'
        exact ⟨by omega, hbuf, .inl h⟩

theorem turn_none {actions : List Cofaction} {buf : List UInt8} {n : ℕ} (h : turn v actions buf n = .ok none) :
    n < 8 ∨ field buf 2 2 < 8 := by
  unfold turn at h
  split at h
  · next hn => exact .inl hn
  · obtain ⟨type, _, h⟩ := Except.bind_eq_ok.mp h
    obtain ⟨len, hlen, h⟩ := Except.bind_eq_ok.mp h
    by_cases hbuf : 2 + 2 ≤ buf.length
    · rw [numberAt_eq hbuf] at hlen
      cases hlen
      split at h
      · next height => exact .inr height
      · split at h
        · cases h
        · split at h
          · cases h
          · obtain ⟨a, _, h⟩ := Except.bind_eq_ok.mp h
            cases h
    · rw [numberAt_short (by omega)] at hlen
      cases hlen

/-- An action that is all in memory. -/
theorem turn_ne_overrun {actions : List Cofaction} {buf : List UInt8} {n : ℕ} (height : 8 ≤ field buf 2 2)
    (hin : field buf 2 2 ≤ buf.length) : turn v actions buf n ≠ .error .overrun := by
  unfold turn
  split
  · exact fun h => by cases h
  rw [numberAt_eq (by omega), numberAt_eq (by omega)]
  show (if field buf 2 2 < 8 then _ else _) ≠ _
  rw [if_neg (by omega)]
  split
  · exact fun h => by cases h
  cases ActionClass.ofType v (field buf 0 2) with
  | none => exact fun h => by cases h
  | some c =>
    have hkeeps : KeepsTo (field buf 2 2) (fun b => Cofaction.unpack v c b (field buf 2 2)) buf :=
      Cofaction.keepsTo_unpack hin (Nat.le_refl _) (Nat.le_refl _)
    exact (hkeeps.bind fun a _ => .ok (some (actions ++ [a], field buf 2 2))).inside

theorem Rejected.four_le {n : ℕ} {buf : List UInt8} (h : Rejected v n buf) : 4 ≤ buf.length := by
  cases h with
  | long hdr => exact hdr
  | action hdr => exact hdr
  | next hlen hle hin => omega

theorem Rejected.eight_le {n : ℕ} {buf : List UInt8} (h : Rejected v n buf) : 8 ≤ n := by
  cases h with
  | long hdr hn => exact hn
  | action hdr hlen hle => omega
  | next hlen hle => omega

/-- It is rejected by the first action, or behind it. -/
theorem rejected_iff (actions : List Cofaction) {n : ℕ} {buf : List UInt8} :
    Rejected v n buf ↔ Throws (turn v actions buf n) ∨ 8 ≤ field buf 2 2 ∧ field buf 2 2 ≤ n ∧
      field buf 2 2 ≤ buf.length ∧ Rejected v (n - field buf 2 2) (buf.drop (field buf 2 2)) := by
  rw [throws_turn]
  constructor
  · intro h
    cases h with
    | long hdr hn hlen => exact .inl ⟨hn, hdr, by omega, .inl hlen⟩
    | action hdr hlen hle hc h => exact .inl ⟨by omega, hdr, hlen, .inr ⟨_, hc, h⟩⟩
    | next hlen hle hin hrest => exact .inr ⟨hlen, hle, hin, hrest⟩
  · rintro (⟨hn, hdr, hlen, h | ⟨c, hc, h⟩⟩ | ⟨hlen, hle, hin, hrest⟩)
    · exact .long hdr hn h
    · by_cases hle : field buf 2 2 ≤ n
      · exact .action hdr hlen hle hc h
      · exact .long hdr hn (by omega)
    · exact .next hlen hle hin hrest

/-- The octets in memory decide whether the list is rejected before the end of memory. -/
theorem loop_throws_iff (actions : List Cofaction) (buf : List UInt8) (n : ℕ) :
    Throws (loop (turn v) actions buf n) ↔ Rejected v n buf := by
  induction n using Nat.strongRecOn generalizing actions buf with
  | ind n ih =>
    rw [rejected_iff actions]
    cases ht : turn v actions buf n with
    | error e =>
      rw [loop_error ht]
      cases e with
      | thrown e => exact ⟨fun _ => .inl ⟨e, rfl⟩, fun _ => ⟨e, rfl⟩⟩
      | overrun =>
        refine ⟨fun h => absurd h not_throws_overrun, ?_⟩
        rintro (h | ⟨hlen, _, hin, _⟩)
        · exact absurd h not_throws_overrun
        · exact absurd ht (turn_ne_overrun hlen hin)
    | ok r =>
      cases r with
      | none =>
        rw [loop_end ht]
        have hend := turn_none ht
        refine ⟨fun h => absurd h (not_throws_ok _), ?_⟩
        rintro (h | ⟨hlen, hle, _, _⟩)
        · exact absurd h (not_throws_ok _)
        · omega
      | some p =>
        obtain ⟨hn, hdr, hm, height, hle⟩ := turn_eq_some ht
        rw [loop_next advances_turn ht, ih (n - p.2) (by omega), ← hm]
        constructor
        · intro h
          have hfour := h.four_le
          rw [List.length_drop] at hfour
          exact .inr ⟨height, hle, by omega, h⟩
        · rintro (h | ⟨_, _, _, h⟩)
          · exact absurd h (not_throws_ok _)
          · exact h

end Cofactions
end RoflCommon
