/-
`cofinstruction` and the classes derived from it, and the loop of `cofinstructions::unpack`.

The loop does not go on by the length in the header of an instruction, but by that of the
object it has decoded, and at a type that it does not know not at all. It follows the
lengths on the wire where each instruction takes as much when it is packed again (`Aligned`).
-/
import RoflCommon.Lib.Iterate
import RoflCommon.Lib.Omap
import RoflCommon.Openflow.ActionPack

namespace RoflCommon

open Octets Window Iterate

/-- The exceptions of the classes that hold instructions. -/
inductive InstructionsException
  | invalid
  | badVersion
  | instructionsInval
  | instructionsNotFound
  | instructionsBadLen
  | actions (e : CodecException)
deriving DecidableEq, Repr

abbrev InstructionsAnswer (α : Type) := Except (Fault InstructionsException) α

def liftActions {α : Type} : Unpacked α → InstructionsAnswer α
  | .ok a => .ok a
  | .error .overrun => .error .overrun
  | .error (.thrown e) => raise (.actions e)

inductive InstructionClass
  | gotoTable | writeMetadata | writeActions | applyActions | clearActions | meter | experimenter
deriving DecidableEq, Repr

namespace InstructionClass

/-- `OFPIT_GOTO_TABLE` to `OFPIT_EXPERIMENTER`. -/
def type : InstructionClass → ℕ
  | gotoTable => 1 | writeMetadata => 2 | writeActions => 3 | applyActions => 4 | clearActions => 5 | meter => 6
  | experimenter => 0xffff

/-- The switch of `cofinstructions::unpack`. -/
def ofType : ℕ → Option InstructionClass
  | 1 => some gotoTable | 2 => some writeMetadata | 3 => some writeActions | 4 => some applyActions
  | 5 => some clearActions | 6 => some meter | 0xffff => some experimenter
  | _ => none

/-- `type` and `len`, `struct ofp_instruction`. -/
def header : Record.Layout := [.field 2, .field 2]

/-- What follows them, in `struct ofp_instruction_goto_table` and its siblings. -/
def members : InstructionClass → Record.Layout
  | gotoTable => [.field 1, .pad 3]
  | writeMetadata => [.pad 4, .field 8, .field 8]
  | writeActions | applyActions | clearActions => [.pad 4]
  | meter | experimenter => [.field 4]

/-- The versions in which `length()` does not throw. -/
def versions : InstructionClass → List UInt8
  | meter => [Openflow13.OFP_VERSION]
  | _ => [Openflow12.OFP_VERSION, Openflow13.OFP_VERSION]

/-- The structure. -/
def layout (c : InstructionClass) : Record.Layout := header ++ c.members

end InstructionClass

/-- An instruction, with its list of actions where it has one. -/
inductive Cofinstruction (α : Type)
  | gotoTable (tableId : UInt8)
  | writeMetadata (metadata metadataMask : UInt64)
  | writeActions (actions : α)
  | applyActions (actions : α)
  | clearActions (actions : α)
  | meter (meterId : UInt32)
  | experimenter (expId : UInt32) (expBody : List UInt8)
deriving DecidableEq, Repr

namespace Cofinstruction

variable {α β : Type}

def instructionClass : Cofinstruction α → InstructionClass
  | gotoTable _ => .gotoTable
  | writeMetadata _ _ => .writeMetadata
  | writeActions _ => .writeActions
  | applyActions _ => .applyActions
  | clearActions _ => .clearActions
  | meter _ => .meter
  | experimenter _ _ => .experimenter

/-- The list of actions. -/
def actions? : Cofinstruction α → Option α
  | writeActions actions | applyActions actions | clearActions actions => some actions
  | _ => none

/-- `length()`. -/
def length (v : UInt8) (i : Cofinstruction (List Cofaction)) : InstructionsAnswer ℕ :=
  if v ∈ i.instructionClass.versions then
    match i with
    | writeActions actions | applyActions actions | clearActions actions => do
      return 8 + (← liftActions (Cofactions.totalLength v actions))
    | experimenter _ expBody => .ok (8 + expBody.length)
    | i => .ok (Record.size i.instructionClass.layout)
  else raise .badVersion

/-- An object as its constructor makes it. -/
def new : InstructionClass → Cofinstruction (List Cofaction)
  | .gotoTable => gotoTable 0
  | .writeMetadata => writeMetadata 0 0
  | .writeActions => writeActions []
  | .applyActions => applyActions []
  | .clearActions => clearActions []
  | .meter => meter 0
  | .experimenter => experimenter 0 []

/-- The actions behind the structure. -/
def unpackActions (v : UInt8) (len : ℕ) (buf : List UInt8) : InstructionsAnswer (List Cofaction) :=
  liftActions (Cofactions.unpack v [] (buf.drop 8) (len - 8))

/-- The octets behind the id of an experimenter. -/
def unpackBody (len : ℕ) (buf : List UInt8) : InstructionsAnswer (List UInt8) := read buf 8 (len - 8)

/-- `unpack` of a new object of the class. -/
def unpack (v : UInt8) (c : InstructionClass) (buf : List UInt8) (buflen : ℕ) :
    InstructionsAnswer (Cofinstruction (List Cofaction)) :=
  if buflen = 0 then .ok (new c)
  -- a goto-table looks at the length before the version
  else if v ∉ c.versions then raise (if c = .gotoTable ∧ buflen < Record.size c.layout then .invalid else .badVersion)
  else if buflen < Record.size c.layout then raise .invalid
  else do
    let len ← numberAt buf 2 2
    if len < Record.size c.layout then raise .invalid
    else
      let vs := (← record c.layout buf).drop 2
      match c with
      | .gotoTable => return gotoTable (.ofNat (vs.getD 0 0))
      | .writeMetadata => return writeMetadata (.ofNat (vs.getD 0 0)) (.ofNat (vs.getD 1 0))
      | .writeActions => return writeActions (← unpackActions v len buf)
      | .applyActions => return applyActions (← unpackActions v len buf)
      | .clearActions => return clearActions (← unpackActions v len buf)
      | .meter => return meter (.ofNat (vs.getD 0 0))
      | .experimenter => return experimenter (.ofNat (vs.getD 0 0)) (← unpackBody len buf)

end Cofinstruction

namespace Cofinstructions

/-- `buflen -= n`, of two `size_t`. -/
def minus (buflen n : ℕ) : ℕ := if n ≤ buflen then buflen - n else 2 ^ 64 - (n - buflen) % 2 ^ 64

/-- Where the loop of `unpack` is in the buffer, how much it takes to be left, and the
instructions so far. -/
structure Unpacking where
  off : ℕ
  buflen : ℕ
  instmap : Omap ℕ (Cofinstruction (List Cofaction))
deriving DecidableEq

/-- An instruction, and the length that it has now. -/
def unpackInst (v : UInt8) (c : InstructionClass) (buf : List UInt8) (len : ℕ) :
    InstructionsAnswer (Cofinstruction (List Cofaction) × ℕ) := do
  let inst ← Cofinstruction.unpack v c buf len
  return (inst, ← inst.length v)

/-- A turn of the loop of `unpack`. -/
def body (v : UInt8) (buf : List UInt8) : Body Unpacking (Fault InstructionsException) := fun s =>
  if s.buflen = 0 then .ok none
  else do
    let type ← numberAt (buf.drop s.off) 0 2
    let len ← numberAt (buf.drop s.off) 2 2
    if len < Record.size InstructionClass.header then return none
    else if s.buflen < len then raise .instructionsBadLen
    else
      match InstructionClass.ofType type with
      -- it says so, and stays where it is
      | none => return some s
      | some c => do
        let (inst, n) ← unpackInst v c (buf.drop s.off) len
        return some ⟨s.off + n, minus s.buflen n, s.instmap.insert c.type inst⟩

def start (buf : List UInt8) : Unpacking := ⟨0, buf.length, .empty⟩

/-- `unpack` of the buffer comes to an end with `r`. -/
def Unpacks (v : UInt8) (buf : List UInt8) (r : InstructionsAnswer (Omap ℕ (Cofinstruction (List Cofaction)))) : Prop :=
  if buf.length < Record.size InstructionClass.header then r = .ok .empty
  else ∃ r', Ends (body v buf) (start buf) r' ∧ r = r'.map Unpacking.instmap

/-- An instruction decoded from just the octets that its length counts, and the next one
looked for right behind them. -/
def ByLength (v : UInt8) (buf : List UInt8) (s s' : Unpacking) : Prop :=
  let l := buf.drop s.off
  let len := field l 2 2
  len ≤ l.length ∧ s'.off = s.off + len ∧ s'.buflen = s.buflen - len ∧
    ∃ c inst, InstructionClass.ofType (field l 0 2) = some c ∧
      Cofinstruction.unpack v c (l.take len) len = .ok inst ∧ s'.instmap = s.instmap.insert c.type inst

/-- It comes to an end, in the buffer, and where it returns it has followed the lengths. -/
structure Follows (v : UInt8) (buf : List UInt8) : Prop where
  terminates : ∃ r, Unpacks v buf r ∧ r ≠ .error .overrun
  byLength : ∀ m, Unpacks v buf (.ok m) → Record.size InstructionClass.header ≤ buf.length → ∀ s s',
    Relation.ReflTransGen (Step (body v buf)) (start buf) s → Step (body v buf) s s' → ByLength v buf s s'

/-- The instruction takes as many octets when it is packed again. -/
def Keeps (v : UInt8) (c : InstructionClass) (len : ℕ) (buf : List UInt8) : Prop :=
  v ∈ c.versions ∧
    match c with
    | .gotoTable | .meter => len = 8
    | .writeMetadata => len = 24
    | .experimenter => 8 ≤ len
    | .writeActions | .applyActions | .clearActions => 8 ≤ len ∧
      ∃ actions, Cofactions.unpack v [] (buf.drop 8) (len - 8) = .ok actions ∧
        Cofactions.totalLength v actions = .ok (len - 8)

/-- Instructions that keep their lengths, to the end or to a length below that of a header. -/
inductive Aligned (v : UInt8) : List UInt8 → Prop
  | nil : Aligned v []
  | short {l : List UInt8} (hdr : 4 ≤ l.length) (hlen : field l 2 2 < 4) : Aligned v l
  | next {l : List UInt8} {c : InstructionClass} (hlen : 4 ≤ field l 2 2) (hin : field l 2 2 ≤ l.length)
      (hc : InstructionClass.ofType (field l 0 2) = some c) (hkeeps : Keeps v c (field l 2 2) l)
      (hrest : Aligned v (l.drop (field l 2 2))) : Aligned v l

/-- Instructions, each as long as it would be packed, and behind them one that is longer than
what is left, or that is rejected. -/
inductive Rejected (v : UInt8) : List UInt8 → Prop
  | long {l : List UInt8} (hdr : 4 ≤ l.length) (hlen : l.length < field l 2 2) : Rejected v l
  | inst {l : List UInt8} {c : InstructionClass} (hlen : 4 ≤ field l 2 2) (hin : field l 2 2 ≤ l.length)
      (hc : InstructionClass.ofType (field l 0 2) = some c) (h : Throws (unpackInst v c l (field l 2 2))) : Rejected v l
  | next {l : List UInt8} {c : InstructionClass} {inst : Cofinstruction (List Cofaction)} {n : ℕ}
      (hlen : 4 ≤ field l 2 2) (hin : field l 2 2 ≤ l.length) (hc : InstructionClass.ofType (field l 0 2) = some c)
      (hinst : unpackInst v c l (field l 2 2) = .ok (inst, n)) (hn : n ≤ l.length)
      (hrest : Rejected v (l.drop n)) : Rejected v l

end Cofinstructions

/-! ## One instruction -/

theorem liftActions_eq_ok {α : Type} {r : Unpacked α} {a : α} : liftActions r = .ok a ↔ r = .ok a := by
  match r with
  | .ok _ => exact ⟨fun h => congrArg _ (Except.ok.inj h), fun h => congrArg _ (Except.ok.inj h)⟩
  | .error .overrun => exact ⟨fun h => (by cases h), fun h => by cases h⟩
  | .error (.thrown _) => exact ⟨fun h => (by cases h), fun h => by cases h⟩

theorem KeepsTo.liftActions {α : Type} {n : ℕ} {d : List UInt8 → Unpacked α} {buf : List UInt8} (h : KeepsTo n d buf) :
    KeepsTo n (fun buf => RoflCommon.liftActions (d buf)) buf := by
  constructor
  · have hinside := h.inside
    cases hd : d buf with
    | ok a => exact fun he => by cases he
    | error e =>
      cases e with
      | overrun => exact absurd hd hinside
      | thrown e => exact fun he => by cases he
  · rw [h.take]

namespace Cofinstruction

variable {v : UInt8} {c : InstructionClass} {buf : List UInt8} {n : ℕ}

theorem keepsTo_unpackActions (hn : n ≤ buf.length) {len : ℕ} (height : 8 ≤ len) (hlen : len ≤ n) :
    KeepsTo n (fun buf => unpackActions v len buf) buf :=
  KeepsTo.liftActions ((Cofactions.within_unpack [] (len - 8)).drop (by omega) buf hn)

/-- A decoder keeps to the length it is handed if that in the header does. -/
theorem keepsTo_unpack (hn : n ≤ buf.length) {buflen : ℕ} (hle : buflen ≤ n) (hlen : field buf 2 2 ≤ n) :
    KeepsTo n (fun buf => unpack v c buf buflen) buf := by
  have hsize : 8 ≤ Record.size c.layout := by cases c <;> decide
  unfold unpack
  refine .ite (fun _ => .ok _) fun _ => .ite (fun _ => .raise _) fun _ => .ite (fun _ => .raise _) fun hlong => ?_
  refine (KeepsTo.numberAt hn (by omega)).bind fun len hread => ?_
  rw [numberAt_eq (by omega)] at hread
  cases hread
  refine .ite (fun _ => .raise _) fun hfit => (KeepsTo.record hn (by omega)).bind fun vs _ => ?_
  have hactions := keepsTo_unpackActions (v := v) hn (by omega) hlen
  cases c with
  | writeActions => exact hactions.bind fun as _ => .ok _
  | applyActions => exact hactions.bind fun as _ => .ok _
  | clearActions => exact hactions.bind fun as _ => .ok _
  | experimenter => exact (KeepsTo.read hn (by omega)).bind fun body _ => .ok _
  | gotoTable => exact .ok _
  | writeMetadata => exact .ok _
  | meter => exact .ok _

/-- What is unpacked behind the structure. -/
def unpackRest (v : UInt8) (c : InstructionClass) (len : ℕ) (vs : List ℕ) (buf : List UInt8) :
    InstructionsAnswer (Cofinstruction (List Cofaction)) :=
  match c with
  | .gotoTable => .ok (gotoTable (.ofNat (vs.getD 0 0)))
  | .writeMetadata => .ok (writeMetadata (.ofNat (vs.getD 0 0)) (.ofNat (vs.getD 1 0)))
  | .writeActions => writeActions <$> unpackActions v len buf
  | .applyActions => applyActions <$> unpackActions v len buf
  | .clearActions => clearActions <$> unpackActions v len buf
  | .meter => .ok (meter (.ofNat (vs.getD 0 0)))
  | .experimenter => experimenter (.ofNat (vs.getD 0 0)) <$> unpackBody len buf

/-- An instruction that is all there. -/
theorem unpack_eq (hpos : 0 < field buf 2 2) (hin : field buf 2 2 ≤ buf.length) :
    unpack v c buf (field buf 2 2) =
      if v ∉ c.versions then
        raise (if c = .gotoTable ∧ field buf 2 2 < Record.size c.layout then .invalid else .badVersion)
      else if field buf 2 2 < Record.size c.layout then raise .invalid
      else unpackRest v c (field buf 2 2) ((Record.read c.layout buf).drop 2) buf := by
  have hsize : 8 ≤ Record.size c.layout := by cases c <;> decide
  rw [unpack, if_neg (by omega)]
  split
  · rfl
  split
  · rfl
  · next hlong =>
    rw [numberAt_eq (by omega), record_eq (by omega)]
    show (if field buf 2 2 < Record.size c.layout then _ else _) = _
    rw [if_neg hlong]
    cases c <;> rfl

end Cofinstruction

namespace Cofinstructions

variable {v : UInt8} {c : InstructionClass} {buf l : List UInt8} {n : ℕ}

theorem length_ne_overrun (a : Cofaction) : a.length v ≠ .error .overrun := by
  unfold Cofaction.length
  cases a.actionClass.layout v with
  | none => exact fun h => by cases h
  | some l =>
    cases a with
    | setField oxm =>
      cases oxm with
      | oxm id => exact fun h => by cases h
      | derived x =>
        show (liftMatch x.length >>= fun n => Except.ok (padded (4 + n)) : Unpacked ℕ) ≠ _
        cases x.length with
        | ok n => exact fun h => by cases h
        | error e => exact fun h => by cases h
    | _ => exact fun h => by cases h

theorem totalLength_ne_overrun (as : List Cofaction) : Cofactions.totalLength v as ≠ .error .overrun := by
  unfold Cofactions.totalLength
  generalize 0 = m
  induction as generalizing m with
  | nil => exact fun h => by cases h
  | cons a as ih =>
    rw [List.foldlM_cons]
    cases ha : a.length v with
    | ok k => exact ih (m + k)
    | error e =>
      intro h
      have he := Except.error.inj h
      rw [he] at ha
      exact length_ne_overrun a ha

theorem unpackInst_ne_overrun (hin : field l 2 2 ≤ l.length) : unpackInst v c l (field l 2 2) ≠ .error .overrun := by
  have hkeeps : KeepsTo (field l 2 2) (fun b => Cofinstruction.unpack v c b (field l 2 2)) l :=
    Cofinstruction.keepsTo_unpack hin le_rfl le_rfl
  have hlength : ∀ inst : Cofinstruction (List Cofaction), inst.length v ≠ .error .overrun := fun inst => by
    unfold Cofinstruction.length
    have hactions : ∀ as : List Cofaction, (liftActions (Cofactions.totalLength v as) >>= fun n =>
        (.ok (8 + n) : InstructionsAnswer ℕ)) ≠ .error .overrun := fun as h => by
      cases has : Cofactions.totalLength v as with
      | ok n =>
        rw [has] at h
        cases h
      | error e =>
        cases e with
        | overrun => exact totalLength_ne_overrun as has
        | thrown e =>
          rw [has] at h
          cases h
    split
    · cases inst with
      | writeActions as => exact hactions as
      | applyActions as => exact hactions as
      | clearActions as => exact hactions as
      | _ => exact fun h => by cases h
    · exact fun h => by cases h
  unfold unpackInst
  cases hinst : Cofinstruction.unpack v c l (field l 2 2) with
  | error e =>
    intro h
    have he := Except.error.inj h
    rw [he] at hinst
    exact hkeeps.inside hinst
  | ok inst =>
    show (inst.length v >>= fun n => (.ok (inst, n) : InstructionsAnswer _)) ≠ _
    cases hn : inst.length v with
    | ok n => exact fun h => by cases h
    | error e =>
      intro h
      have he := Except.error.inj h
      rw [he] at hn
      exact hlength inst hn

/-- Instructions with actions: what is decoded, and how long that is. -/
theorem unpackInst_actions {wrap : List Cofaction → Cofinstruction (List Cofaction)} {len : ℕ}
    (hlength : ∀ as, (wrap as).length v = do return 8 + (← liftActions (Cofactions.totalLength v as))) {m : ℕ} :
    (∃ inst, (wrap <$> Cofinstruction.unpackActions v len l >>= fun inst => do return (inst, ← inst.length v) :
      InstructionsAnswer (Cofinstruction (List Cofaction) × ℕ)) = .ok (inst, m)) ↔
    ∃ actions k, Cofactions.unpack v [] (l.drop 8) (len - 8) = .ok actions ∧ Cofactions.totalLength v actions = .ok k ∧
      m = 8 + k := by
  constructor
  · rintro ⟨inst, h⟩
    obtain ⟨inst', hinst, h⟩ := Except.bind_eq_ok.mp h
    obtain ⟨n, hn, h⟩ := Except.bind_eq_ok.mp h
    cases h
    cases has : Cofinstruction.unpackActions v len l with
    | error e =>
      rw [has] at hinst
      cases hinst
    | ok actions =>
      rw [has] at hinst
      cases hinst
      rw [hlength] at hn
      obtain ⟨k, hk, hn⟩ := Except.bind_eq_ok.mp hn
      exact ⟨actions, k, liftActions_eq_ok.mp has, liftActions_eq_ok.mp hk, (Except.ok.inj hn).symm⟩
  · rintro ⟨actions, k, has, hk, rfl⟩
    refine ⟨wrap actions, ?_⟩
    rw [Cofinstruction.unpackActions, has]
    show ((wrap actions).length v >>= fun n => (.ok (wrap actions, n) : InstructionsAnswer _)) = _
    rw [hlength, hk]
    rfl

/-- The length that a decoded instruction has. -/
theorem keeps_iff (hpos : 4 ≤ field l 2 2) (hin : field l 2 2 ≤ l.length) :
    Keeps v c (field l 2 2) l ↔ ∃ inst, unpackInst v c l (field l 2 2) = .ok (inst, field l 2 2) := by
  rw [unpackInst, Cofinstruction.unpack_eq (by omega) hin]
  by_cases hv : v ∈ c.versions
  swap
  · rw [if_pos hv]
    exact ⟨fun h => absurd h.1 hv, fun ⟨_, h⟩ => by cases h⟩
  rw [if_neg (not_not.mpr hv)]
  unfold Keeps
  rw [and_iff_right hv]
  have hfixed : ∀ (inst : Cofinstruction (List Cofaction)) (size : ℕ), inst.length v = .ok size →
      (field l 2 2 = size ↔ ∃ inst', ((if field l 2 2 < size then raise .invalid else .ok inst) >>= fun inst => do
        return (inst, ← inst.length v) : InstructionsAnswer (Cofinstruction (List Cofaction) × ℕ)) =
          .ok (inst', field l 2 2)) := by
    intro inst size hsize
    by_cases hlt : field l 2 2 < size
    · rw [if_pos hlt]
      exact ⟨fun h => by omega, fun ⟨_, h⟩ => by cases h⟩
    · rw [if_neg hlt]
      show _ ↔ ∃ inst', (inst.length v >>= fun n => (.ok (inst, n) : InstructionsAnswer _)) = _
      rw [hsize]
      exact ⟨fun h => ⟨inst, by rw [h]; rfl⟩, fun ⟨_, h⟩ => (Prod.mk.inj (Except.ok.inj h)).2.symm⟩
  have hactions : ∀ wrap : List Cofaction → Cofinstruction (List Cofaction),
      (∀ as, (wrap as).length v = do return 8 + (← liftActions (Cofactions.totalLength v as))) →
      ((8 ≤ field l 2 2 ∧ ∃ actions, Cofactions.unpack v [] (l.drop 8) (field l 2 2 - 8) = .ok actions ∧
        Cofactions.totalLength v actions = .ok (field l 2 2 - 8)) ↔
      ∃ inst, ((if field l 2 2 < 8 then raise .invalid
        else wrap <$> Cofinstruction.unpackActions v (field l 2 2) l) >>= fun inst => do return (inst, ← inst.length v) :
          InstructionsAnswer (Cofinstruction (List Cofaction) × ℕ)) = .ok (inst, field l 2 2)) := by
    intro wrap hlength
    by_cases height : field l 2 2 < 8
    · rw [if_pos height]
      exact ⟨fun h => by omega, fun ⟨_, h⟩ => by cases h⟩
    · rw [if_neg height, unpackInst_actions hlength]
      constructor
      · rintro ⟨_, actions, has, hk⟩
        exact ⟨actions, _, has, hk, by omega⟩
      · rintro ⟨actions, k, has, hk, hsum⟩
        obtain rfl : k = field l 2 2 - 8 := by omega
        exact ⟨by omega, actions, has, hk⟩
  cases c with
  | writeActions => exact hactions .writeActions fun as => if_pos hv
  | applyActions => exact hactions .applyActions fun as => if_pos hv
  | clearActions => exact hactions .clearActions fun as => if_pos hv
  | gotoTable => exact hfixed _ 8 (if_pos hv)
  | writeMetadata => exact hfixed _ 24 (if_pos hv)
  | meter => exact hfixed _ 8 (if_pos hv)
  | experimenter =>
    by_cases height : field l 2 2 < 8
    · rw [if_pos (show field l 2 2 < Record.size InstructionClass.experimenter.layout from height)]
      exact ⟨fun h => by omega, fun ⟨_, h⟩ => by cases h⟩
    · rw [if_neg (show ¬field l 2 2 < Record.size InstructionClass.experimenter.layout from height)]
      have hbody : Cofinstruction.unpackBody (field l 2 2) l = .ok ((l.drop 8).take (field l 2 2 - 8)) :=
        read_eq (by omega)
      have hlen : ((l.drop 8).take (field l 2 2 - 8)).length = field l 2 2 - 8 := by
        rw [List.length_take, List.length_drop]
        omega
      have hlength : ∀ expId, Cofinstruction.length v (.experimenter expId ((l.drop 8).take (field l 2 2 - 8))) =
          .ok (field l 2 2) := fun expId => by
        refine (if_pos hv).trans ?_
        dsimp only
        rw [hlen, show 8 + (field l 2 2 - 8) = field l 2 2 by omega]
      refine ⟨fun _ => ?_, fun _ => by omega⟩
      rw [Cofinstruction.unpackRest, hbody]
      show ∃ inst, (Cofinstruction.length v (.experimenter _ _) >>= fun n => (.ok (_, n) : InstructionsAnswer _)) = _
      rw [hlength]
      exact ⟨_, rfl⟩

/-! ## The loop -/

/-- What a turn does, by what is left. -/
inductive Does (v : UInt8) (s : Unpacking) (l : List UInt8) : InstructionsAnswer (Option Unpacking) → Prop
  | ends (hl : l = []) : Does v s l (.ok none)
  | outside (hpos : 0 < l.length) (hl : l.length < 4) : Does v s l (.error .overrun)
  | short (hdr : 4 ≤ l.length) (hlen : field l 2 2 < 4) : Does v s l (.ok none)
  | long (hdr : 4 ≤ l.length) (hlen : l.length < field l 2 2) : Does v s l (raise .instructionsBadLen)
  | unknown (hlen : 4 ≤ field l 2 2) (hin : field l 2 2 ≤ l.length)
      (hc : InstructionClass.ofType (field l 0 2) = none) : Does v s l (.ok (some s))
  | rejected {c : InstructionClass} {e : InstructionsException} (hlen : 4 ≤ field l 2 2) (hin : field l 2 2 ≤ l.length)
      (hc : InstructionClass.ofType (field l 0 2) = some c)
      (h : unpackInst v c l (field l 2 2) = .error (.thrown e)) : Does v s l (.error (.thrown e))
  | inst {c : InstructionClass} {inst : Cofinstruction (List Cofaction)} {n : ℕ} (hlen : 4 ≤ field l 2 2)
      (hin : field l 2 2 ≤ l.length) (hc : InstructionClass.ofType (field l 0 2) = some c)
      (h : unpackInst v c l (field l 2 2) = .ok (inst, n)) :
      Does v s l (.ok (some ⟨s.off + n, minus s.buflen n, s.instmap.insert c.type inst⟩))

variable {s s' : Unpacking}

/-- What is taken to be left is what is there. -/
structure At (buf : List UInt8) (s : Unpacking) (l : List UInt8) : Prop where
  left : buf.drop s.off = l
  buflen : s.buflen = l.length

theorem does_body (hs : At buf s l) : Does v s l (body v buf s) := by
  unfold body
  rw [hs.left, hs.buflen]
  split
  · next hzero => exact .ends (List.eq_nil_of_length_eq_zero hzero)
  next hpos =>
  by_cases hdr : l.length < 4
  · by_cases htwo : l.length < 2
    · rw [numberAt_short (by omega)]
      exact .outside (by omega) hdr
    · rw [numberAt_eq (by omega), numberAt_short (by omega)]
      exact .outside (by omega) hdr
  rw [numberAt_eq (by omega), numberAt_eq (by omega)]
  show Does v s l (if field l 2 2 < 4 then _ else _)
  split
  · next hlen => exact .short (by omega) hlen
  next hlen =>
  split
  · next hlong => exact .long (by omega) hlong
  next hin =>
  cases hc : InstructionClass.ofType (field l 0 2) with
  | none => exact .unknown (by omega) (by omega) hc
  | some c =>
    dsimp only
    cases hinst : unpackInst v c l (field l 2 2) with
    | error e =>
      cases e with
      | overrun => exact absurd hinst (unpackInst_ne_overrun (by omega))
      | thrown e => exact .rejected (by omega) (by omega) hc hinst
    | ok p =>
      rw [← hs.buflen]
      exact .inst (by omega) (by omega) hc hinst

/-- An instruction of a type that is known. -/
theorem body_eq (hs : At buf s l) (hlen : 4 ≤ field l 2 2) (hin : field l 2 2 ≤ l.length)
    (hc : InstructionClass.ofType (field l 0 2) = some c) : body v buf s = unpackInst v c l (field l 2 2) >>= fun p =>
      .ok (some ⟨s.off + p.2, minus s.buflen p.2, s.instmap.insert c.type p.1⟩) := by
  rw [body, hs.left, if_neg (by rw [hs.buflen]; omega), numberAt_eq (by omega), numberAt_eq (by omega)]
  show (if field l 2 2 < 4 then _ else _) = _
  rw [if_neg (by omega), if_neg (by rw [hs.buflen]; omega), hc]
  rfl

theorem body_inst (hs : At buf s l) (hlen : 4 ≤ field l 2 2) (hin : field l 2 2 ≤ l.length)
    (hc : InstructionClass.ofType (field l 0 2) = some c) {inst : Cofinstruction (List Cofaction)}
    (hinst : unpackInst v c l (field l 2 2) = .ok (inst, n)) :
    body v buf s = .ok (some ⟨s.off + n, minus s.buflen n, s.instmap.insert c.type inst⟩) := by
  rw [body_eq hs hlen hin hc, hinst]
  rfl

theorem at_start (buf : List UInt8) : At buf (start buf) buf := ⟨List.drop_zero, rfl⟩

/-- Behind an instruction that fits. -/
theorem At.next (hs : At buf s l) (hn : n ≤ l.length) (m : Omap ℕ (Cofinstruction (List Cofaction))) :
    At buf ⟨s.off + n, minus s.buflen n, m⟩ (l.drop n) := by
  refine ⟨?_, ?_⟩
  · show buf.drop (s.off + n) = _
    rw [← List.drop_drop, hs.left]
  · show minus s.buflen n = _
    rw [minus, hs.buflen, if_pos hn, List.length_drop]

/-- Behind one that does not, the next header is read outside of the buffer. -/
theorem body_outside (hs : At buf s l) (hn : l.length < n) (m : Omap ℕ (Cofinstruction (List Cofaction))) :
    body v buf ⟨s.off + n, minus s.buflen n, m⟩ = .error .overrun := by
  have hpos : minus s.buflen n ≠ 0 := by
    rw [minus, hs.buflen, if_neg (by omega)]
    have hmod := Nat.mod_lt (n - l.length) (Nat.two_pow_pos 64)
    omega
  have hnil : buf.drop (s.off + n) = [] := by
    rw [← List.drop_drop, hs.left]
    exact List.drop_eq_nil_of_le hn.le
  rw [body, if_neg hpos]
  dsimp only
  rw [hnil, numberAt_short (by decide)]
  rfl

theorem byLength_of_keeps (hs : At buf s l) (hin : field l 2 2 ≤ l.length)
    (hc : InstructionClass.ofType (field l 0 2) = some c) {inst : Cofinstruction (List Cofaction)}
    (hinst : unpackInst v c l (field l 2 2) = .ok (inst, field l 2 2)) :
    ByLength v buf s ⟨s.off + field l 2 2, minus s.buflen (field l 2 2), s.instmap.insert c.type inst⟩ := by
  have hkeeps : KeepsTo (field l 2 2) (fun b => Cofinstruction.unpack v c b (field l 2 2)) l :=
    Cofinstruction.keepsTo_unpack hin le_rfl le_rfl
  obtain ⟨inst', hunpack, h⟩ := Except.bind_eq_ok.mp hinst
  obtain ⟨n, _, h⟩ := Except.bind_eq_ok.mp h
  cases h
  refine ⟨?_, ?_, ?_, c, inst, ?_, ?_, rfl⟩
  · rwa [hs.left]
  · rw [hs.left]
  · show minus s.buflen _ = _
    rw [minus, if_pos (by rw [hs.buflen]; exact hin), hs.left]
  · rwa [hs.left]
  · rw [hs.left]
    exact hkeeps.take.trans hunpack

/-- Lengths that are kept are followed. -/
theorem Aligned.follows (h : Aligned v l) (hs : At buf s l) :
    (∃ t, Ends (body v buf) s (.ok t)) ∧ ∀ s₁ s₂, Relation.ReflTransGen (Step (body v buf)) s s₁ →
      Step (body v buf) s₁ s₂ → ByLength v buf s₁ s₂ := by
  induction h generalizing s with
  | nil =>
    have hbody : body v buf s = .ok none := if_pos hs.buflen
    exact ⟨⟨s, (ends_done hbody).mpr rfl⟩, forall_step_done hbody⟩
  | @short l hdr hlen =>
    have hbody : body v buf s = .ok none := by
      have hdoes := does_body (v := v) hs
      generalize body v buf s = r at hdoes
      cases hdoes with
      | short => rfl
      | ends => rfl
      | _ => omega
    exact ⟨⟨s, (ends_done hbody).mpr rfl⟩, forall_step_done hbody⟩
  | @next l c hlen hin hc hkeeps _ ih =>
    obtain ⟨inst, hinst⟩ := (keeps_iff hlen hin).mp hkeeps
    have hbody := body_inst hs hlen hin hc hinst
    obtain ⟨⟨t, ht⟩, hsteps⟩ := ih (hs.next hin (s.instmap.insert c.type inst))
    exact ⟨⟨t, (ends_next hbody).mpr ht⟩, (forall_step_next hbody).mpr ⟨byLength_of_keeps hs hin hc hinst, hsteps⟩⟩

theorem Rejected.thrown (h : Rejected v l) (hs : At buf s l) : ∃ e, Ends (body v buf) s (.error (.thrown e)) := by
  induction h generalizing s with
  | @long l hdr hlen =>
    have hdoes := does_body (v := v) hs
    refine ⟨.instructionsBadLen, (ends_error ?_).mpr rfl⟩
    generalize body v buf s = r at hdoes ⊢
    cases hdoes with
    | long => rfl
    | ends hl =>
      rw [hl] at hdr
      cases hdr
    | _ => omega
  | @inst l c hlen hin hc hthrows =>
    obtain ⟨e, he⟩ := hthrows
    have hbody : body v buf s = .error (.thrown e) := by
      rw [body_eq hs hlen hin hc, he]
      rfl
    exact ⟨e, (ends_error hbody).mpr rfl⟩
  | @next l c inst n hlen hin hc hinst hn _ ih =>
    obtain ⟨e, he⟩ := ih (hs.next hn (s.instmap.insert c.type inst))
    exact ⟨e, (ends_next (body_inst hs hlen hin hc hinst)).mpr he⟩

/-- A loop that returns and follows the lengths finds them kept. -/
theorem aligned_of_ends (hs : At buf s l) {k : ℕ} {t : Unpacking} (hrun : Iterate.run (body v buf) k s = some (.ok t))
    (hsteps : ∀ s₁ s₂, Relation.ReflTransGen (Step (body v buf)) s s₁ → Step (body v buf) s₁ s₂ → ByLength v buf s₁ s₂) :
    Aligned v l := by
  induction k generalizing s l with
  | zero => cases hrun
  | succ k ih =>
    have hdoes := does_body (v := v) hs
    rw [Iterate.run] at hrun
    generalize hbody : body v buf s = r at hdoes hrun
    cases hdoes with
    | ends hl =>
      rw [hl]
      exact .nil
    | outside => cases hrun
    | short hdr hlen => exact .short hdr hlen
    | long => cases hrun
    | unknown =>
      exact absurd ⟨k, hrun⟩ (not_ends_of_fixed hbody)
    | rejected => cases hrun
    | @inst c inst n hlen hin hc hinst =>
      obtain ⟨hfirst, hrest⟩ := (forall_step_next hbody).mp hsteps
      obtain ⟨_, hoff, _⟩ := hfirst
      rw [hs.left] at hoff
      obtain rfl : n = field l 2 2 := Nat.add_left_cancel hoff
      exact .next hlen hin hc ((keeps_iff hlen hin).mpr ⟨inst, hinst⟩) (ih (hs.next hin _) hrun hrest)

/-- A loop that throws comes to what is rejected. -/
theorem rejected_of_ends (hs : At buf s l) {k : ℕ} {e : InstructionsException}
    (hrun : Iterate.run (body v buf) k s = some (.error (.thrown e))) : Rejected v l := by
  induction k generalizing s l with
  | zero => cases hrun
  | succ k ih =>
    have hdoes := does_body (v := v) hs
    rw [Iterate.run] at hrun
    generalize hbody : body v buf s = r at hdoes hrun
    cases hdoes with
    | ends => cases hrun
    | outside => cases hrun
    | short => cases hrun
    | long hdr hlen => exact .long hdr hlen
    | unknown => exact absurd ⟨k, hrun⟩ (not_ends_of_fixed hbody)
    | rejected hlen hin hc h => exact .inst hlen hin hc ⟨_, h⟩
    | @inst c inst n hlen hin hc hinst =>
      by_cases hn : n ≤ l.length
      · exact .next hlen hin hc hinst hn (ih (hs.next hn _) hrun)
      · have hnext := body_outside (v := v) hs (by omega : l.length < n) (s.instmap.insert c.type inst)
        cases k with
        | zero => cases hrun
        | succ k =>
          dsimp only at hrun
          rw [Iterate.run] at hrun
          rw [hnext] at hrun
          cases hrun

/-- Which buffers the parser comes to an end of, and by the lengths on the wire. -/
theorem follows_iff (v : UInt8) (buf : List UInt8) :
    Follows v buf ↔ buf.length < Record.size InstructionClass.header ∨ Aligned v buf ∨ Rejected v buf := by
  by_cases hshort : buf.length < Record.size InstructionClass.header
  · have hunpacks : ∀ r, Unpacks v buf r ↔ r = .ok .empty := fun r => by rw [Unpacks, if_pos hshort]
    refine ⟨fun _ => .inl hshort, fun _ => ⟨⟨_, (hunpacks _).mpr rfl, fun h => by cases h⟩, ?_⟩⟩
    exact fun _ _ hlong => absurd hshort (Nat.not_lt.mpr hlong)
  have hunpacks : ∀ r, Unpacks v buf r ↔ ∃ r', Ends (body v buf) (start buf) r' ∧ r = r'.map Unpacking.instmap :=
    fun r => by rw [Unpacks, if_neg hshort]
  have hat := at_start buf
  constructor
  · rintro ⟨⟨r, hr, hinside⟩, hsteps⟩
    obtain ⟨r', hends, rfl⟩ := (hunpacks r).mp hr
    have hends' := hends
    obtain ⟨k, hrun⟩ := hends
    match r', hrun with
    | .ok t, hrun =>
      exact .inr (.inl (aligned_of_ends hat hrun (hsteps t.instmap hr (Nat.not_lt.mp hshort))))
    | .error (.thrown e), hrun => exact .inr (.inr (rejected_of_ends hat hrun))
    | .error .overrun, _ => exact absurd rfl hinside
  · rintro (h | h | h)
    · exact absurd h hshort
    · obtain ⟨⟨t, ht⟩, hsteps⟩ := h.follows hat
      exact ⟨⟨_, (hunpacks _).mpr ⟨_, ht, rfl⟩, fun h => by cases h⟩, fun _ _ _ => hsteps⟩
    · obtain ⟨e, he⟩ := h.thrown hat
      refine ⟨⟨_, (hunpacks _).mpr ⟨_, he, rfl⟩, fun h => by cases h⟩, fun m hm => ?_⟩
      obtain ⟨r', hr', hmap⟩ := (hunpacks _).mp hm
      cases hr'.unique he
      cases hmap

/-- An unknown type is looked at for good; and a goto-table instruction of sixteen octets is
followed by the one within it. -/
theorem unknown_type_and_long_goto_table :
    ¬Follows Openflow13.OFP_VERSION [0, 7, 0, 8, 0, 0, 0, 0] ∧
      ¬Follows Openflow13.OFP_VERSION [0, 1, 0, 16, 5, 0, 0, 0, 0, 1, 0, 8, 9, 0, 0, 0] := by
  constructor
  · rintro ⟨⟨r, hr, _⟩, _⟩
    obtain ⟨r', hends, _⟩ := hr
    exact not_ends_of_fixed rfl hends
  · intro h
    have hfirst : Step (body Openflow13.OFP_VERSION [0, 1, 0, 16, 5, 0, 0, 0, 0, 1, 0, 8, 9, 0, 0, 0])
        (start [0, 1, 0, 16, 5, 0, 0, 0, 0, 1, 0, 8, 9, 0, 0, 0]) ⟨8, 8, .insert .empty 1 (.gotoTable 5)⟩ := by
      unfold Step
      decide
    have hreturns : Unpacks Openflow13.OFP_VERSION [0, 1, 0, 16, 5, 0, 0, 0, 0, 1, 0, 8, 9, 0, 0, 0]
        (.ok (.insert .empty 1 (.gotoTable 9))) :=
      ⟨.ok ⟨16, 0, .insert .empty 1 (.gotoTable 9)⟩, ⟨3, by decide⟩, by decide⟩
    obtain ⟨_, hoff, _⟩ := h.byLength _ hreturns (by decide) _ _ .refl hfirst
    revert hoff
    decide

end Cofinstructions
end RoflCommon
