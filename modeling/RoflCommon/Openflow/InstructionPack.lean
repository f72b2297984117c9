/-
Packing instructions: `length` and `pack` of `cofinstruction` and the classes derived from
it, and of `cofinstructions`.

A set comes back from the wire where each instruction fits its length and its actions come
back (`Cofinstructions.roundTrips_of_survives`). Since the loop of `unpack` goes on by what it
has decoded, nothing else does: what it takes off adds up to the length of the set only if it
never leaves the instructions as they were packed (`roundTrips_iff_survives`). A mask that the flag of
its OXM leaves out counts in the length and is not packed; with such masks the octets that
nobody writes are read as instructions.
-/
import RoflCommon.Openflow.ActionMaps
import RoflCommon.Openflow.Cofinstructions

namespace RoflCommon

open Octets Window Iterate

namespace Cofinstruction

variable {α β : Type}

/-- The instruction with another list of actions. -/
def map (f : α → β) : Cofinstruction α → Cofinstruction β
  | gotoTable tableId => gotoTable tableId
  | writeMetadata metadata metadataMask => writeMetadata metadata metadataMask
  | writeActions actions => writeActions (f actions)
  | applyActions actions => applyActions (f actions)
  | clearActions actions => clearActions (f actions)
  | meter meterId => meter meterId
  | experimenter expId expBody => experimenter expId expBody

/-- What follows type and length in the structure. -/
def members : Cofinstruction α → List ℕ
  | gotoTable tableId => [tableId.toNat]
  | writeMetadata metadata metadataMask => [metadata.toNat, metadataMask.toNat]
  | writeActions _ | applyActions _ | clearActions _ => []
  | meter meterId => [meterId.toNat]
  | experimenter expId _ => [expId.toNat]

def fields (i : Cofinstruction α) (n : ℕ) : List ℕ := i.instructionClass.type :: n % 65536 :: i.members

/-- What is packed behind the structure. -/
def packBody (v : UInt8) (i : Cofinstruction (List Cofaction)) (buf : List UInt8) : InstructionsAnswer (List UInt8) :=
  match i with
  | writeActions actions | applyActions actions | clearActions actions => do
    let n ← liftActions (Cofactions.totalLength v actions)
    return buf.take 8 ++ (← liftActions (Cofactions.pack v actions (buf.drop 8) n))
  | experimenter _ expBody => write buf 8 expBody
  | _ => .ok buf

def pack (v : UInt8) (i : Cofinstruction (List Cofaction)) (buf : List UInt8) (buflen : ℕ) :
    InstructionsAnswer (List UInt8) :=
  if buflen = 0 then .ok buf
  else do
    let n ← i.length v
    if buflen < n then raise .invalid
    else do
      let buf ← writeRecord i.instructionClass.layout (i.fields n) buf
      i.packBody v buf

/-- The instruction as `pack` leaves it. -/
def packed (i : Cofinstruction (List Cofaction)) : Cofinstruction (List Cofaction) := i.map (List.map Cofaction.packed)

def content (i : Cofinstruction (List Cofaction)) : Cofinstruction (List Cofaction) :=
  i.map (List.map Cofaction.content)

/-- What the decoder makes of it. -/
def reread (i : Cofinstruction (List Cofaction)) : Cofinstruction (List Cofaction) := i.map (List.map Cofaction.reread)

end Cofinstruction

namespace Cofinstructions

/-- `length()` of the instructions, one after another. -/
def totalLength (v : UInt8) (insts : List (Cofinstruction (List Cofaction))) : InstructionsAnswer ℕ :=
  insts.foldlM (fun n i => do return n + (← i.length v)) 0

/-- The loop of `pack`, from the octet at which the set goes on. -/
def packFrom (v : UInt8) : List (Cofinstruction (List Cofaction)) → List UInt8 → InstructionsAnswer (List UInt8)
  | [], buf => .ok buf
  | i :: insts, buf => do
    let n ← i.length v
    let buf ← i.pack v buf n
    return buf.take n ++ (← packFrom v insts (buf.drop n))

def pack (v : UInt8) (instmap : Omap ℕ (Cofinstruction (List Cofaction))) (buf : List UInt8) (buflen : ℕ) :
    InstructionsAnswer (List UInt8) := do
  let n ← totalLength v instmap.values
  if buflen < n then raise .instructionsInval
  else packFrom v instmap.values buf

/-- A set packed into as many octets as it takes, whatever they were, is read as it was. -/
def RoundTrips (v : UInt8) (instmap : Omap ℕ (Cofinstruction (List Cofaction))) : Prop :=
  ∃ n, totalLength v instmap.values = .ok n ∧ ∀ buf : List UInt8, buf.length = n → ∃ out m,
    pack v instmap buf n = .ok out ∧ Unpacks v out (.ok m) ∧
      m.map (fun _ i => i.content) = instmap.map fun _ i => i.packed.content

end Cofinstructions

/-! ## Lengths -/

namespace SetFieldOxm

/-- An experimenter's OXM has no mask but by its flag. -/
def Tidy : SetFieldOxm → Prop
  | derived ⟨id, .exp _ _ mask⟩ => id.hasmask = false → mask = []
  | _ => True

variable {o o' : SetFieldOxm} {n : ℕ}

theorem length_content (ho : o.Tidy) : o.content.length = o.length := by
  cases o with
  | oxm id => rfl
  | derived x =>
    obtain ⟨id, body⟩ := x
    have hlength : Coxmatch.length (Coxmatch.content ⟨id, body⟩) = Coxmatch.length ⟨id, body⟩ := by
      by_cases hmask : (Coxmatch.mk id body).hasmask = true
      · rw [Coxmatch.content, if_pos hmask]
      · rw [Coxmatch.content, if_neg hmask]
        cases body with
        | fixed w value mask => rfl
        | exp expId value mask =>
          have hnil : mask = [] := ho (Bool.eq_false_of_not_eq_true hmask)
          rw [hnil]
    exact congrArg liftMatch hlength

theorem packed_length (o : SetFieldOxm) : o.packed.length = o.length := by
  cases o with
  | oxm id => rfl
  | derived x =>
    obtain ⟨id, body⟩ := x
    cases body <;> rfl

theorem tidy_packed (ho : o.Tidy) : o.packed.Tidy := by
  cases o with
  | oxm id => trivial
  | derived x =>
    obtain ⟨id, body⟩ := x
    cases body with
    | fixed w value mask => trivial
    | exp expId value mask => exact ho

/-- Its length is in its id. -/
theorem length_le (ho : o.Survives) (htidy : o.Tidy) (h : o.length = .ok n) : n ≤ 4 + o.packedId.oxmLength.toNat := by
  cases o with
  | oxm id =>
    cases h
    exact Nat.zero_le _
  | derived x =>
    obtain ⟨id, body⟩ := x
    have hn := liftMatch_eq_ok.mp h
    cases body with
    | fixed w value mask =>
      cases hn
      show 4 + w.length id.hasmask ≤ 4 + (UInt8.ofNat (w.length id.hasmask)).toNat
      rw [toNat_length]
    | exp expId value mask =>
      obtain ⟨-, rfl⟩ := Coxmatch.length_exp.mp hn
      obtain ⟨-, hlength⟩ := ho
      show _ ≤ 4 + id.oxmLength.toNat
      cases hmask : id.hasmask with
      | true =>
        rw [hmask] at hlength
        change 4 + value.length + mask.length = _ at hlength
        omega
      | false =>
        rw [hmask] at hlength
        change 4 + value.length + 0 = _ at hlength
        rw [htidy hmask, List.length_nil]
        omega

/-- What is read has no mask but by its flag. -/
theorem tidy_unpack {buf : List UInt8} {id : OxmId} (hid : OxmId.ofOctets buf = id) (hbuf : 4 ≤ buf.length)
    (h : unpack id buf (4 + id.oxmLength.toNat) = .ok o) : o.Tidy := by
  by_cases hclass : id.oxmClass ∈ known
  · by_cases hzero : id.oxmLength = 0
    · rw [unpack_empty id hclass hzero hbuf] at h
      cases h
      trivial
    · rw [unpack_width id hclass hzero] at h
      split at h
      · obtain ⟨y, hy, rfl⟩ := derived_eq_ok h
        obtain ⟨id', value, mask, rfl⟩ := unpackAt_new hy
        trivial
      · cases h
        trivial
  · by_cases hexp : id.oxmClass = Openflow.OFPXMC_EXPERIMENTER
    · rw [unpack_exp id hexp] at h
      obtain ⟨y, hy, rfl⟩ := derived_eq_ok h
      obtain ⟨expId, value, mask, rfl, hempty, _⟩ := unpackAt_exp hid hbuf hy
      exact hempty
    · rw [unpack_other id hclass hexp] at h
      cases h
      trivial

end SetFieldOxm

namespace Cofaction

variable {v : UInt8} {a a' : Cofaction} {c : ActionClass} {buf : List UInt8} {n : ℕ}

def Tidy : Cofaction → Prop
  | setField oxm => oxm.Tidy
  | _ => True

theorem length_setField_eq (v : UInt8) (oxm : SetFieldOxm) : (setField oxm).length v =
    match ActionClass.setField.layout v with
    | none => raise .badVersion
    | some _ => oxm.length >>= fun n => .ok (padded (4 + n)) := rfl

theorem length_content (ha : a.Tidy) : a.content.length v = a.length v := by
  cases a with
  | setField oxm => rw [content, length_setField_eq, oxm.length_content ha, length_setField_eq]
  | _ => rfl

theorem packed_length (a : Cofaction) : a.packed.length v = a.length v := by
  cases a with
  | setField oxm => rw [packed, length_setField_eq, oxm.packed_length, length_setField_eq]
  | _ => rfl

theorem tidy_packed (ha : a.Tidy) : a.packed.Tidy := by
  cases a with
  | setField oxm => exact SetFieldOxm.tidy_packed ha
  | _ => trivial

/-- Actions that say the same have one length. -/
theorem length_of_content (ha : a.Tidy) (ha' : a'.Tidy) (h : a'.content = a.packed.content) :
    a'.length v = a.length v := by
  rw [← length_content ha', h, length_content (tidy_packed ha), packed_length]

theorem tidy_unpackSetField {len buflen : ℕ} (h : unpackSetField len buf buflen = .ok a) : a.Tidy := by
  unfold unpackSetField at h
  split at h
  · cases h
  · obtain ⟨octets, hread, h⟩ := Except.bind_eq_ok.mp h
    dsimp only at h
    split at h
    · cases h
    · obtain ⟨oxm, hoxm, h⟩ := Except.bind_eq_ok.mp h
      cases h
      have hbuf : 4 + 4 ≤ buf.length := by
        by_contra hshort
        rw [read_short (by omega)] at hread
        cases hread
      have hdrop : 4 ≤ (buf.drop 4).length := by
        rw [List.length_drop]
        omega
      rw [read_eq hbuf] at hread
      cases hread
      rw [OxmId.ofOctets_take hdrop le_rfl] at hoxm
      exact SetFieldOxm.tidy_unpack rfl hdrop hoxm

theorem tidy_unpack (h : unpack v c buf n = .ok a) : a.Tidy := by
  by_cases hc : c = .setField
  · subst hc
    unfold unpack at h
    split at h
    · cases h
    · split at h
      · cases h
      · split at h
        · cases h
        · obtain ⟨hdr, _, h⟩ := Except.bind_eq_ok.mp h
          dsimp only at h
          split at h
          · cases h
          · obtain ⟨vs, _, h⟩ := Except.bind_eq_ok.mp h
            exact tidy_unpackSetField h
  · have hclass := Cofactions.actionClass_unpack h
    cases a <;> first | trivial | exact absurd hclass.symm hc

end Cofaction

/-! ## Lists in a window -/

namespace Cofactions

variable {v : UInt8} {a : Cofaction} {xs ys acc : List Cofaction} {n m : ℕ} {buf out rest : List UInt8}

/-- Actions that say the same, one by one, have one length. -/
theorem totalLength_of_content (hxs : ∀ a ∈ xs, a.Tidy) (hys : ∀ a ∈ ys, a.Tidy)
    (h : ys.map Cofaction.content = xs.map fun a => a.packed.content) : totalLength v ys = totalLength v xs := by
  unfold totalLength
  generalize 0 = k
  induction xs generalizing ys k with
  | nil =>
    rw [List.map_eq_nil_iff.mp h]
  | cons a xs ih =>
    cases ys with
    | nil => cases h
    | cons b ys =>
      obtain ⟨hhead, htail⟩ := List.cons.inj h
      rw [List.foldlM_cons, List.foldlM_cons,
        Cofaction.length_of_content (hxs a List.mem_cons_self) (hys b List.mem_cons_self) hhead]
      cases a.length v with
      | error e => rfl
      | ok j =>
        exact ih (fun c hc => hxs c (List.mem_cons_of_mem a hc)) (fun c hc => hys c (List.mem_cons_of_mem b hc)) htail
          (k + j)

/-- What the loop appends was decoded. -/
theorem tidy_loop (h : loop (turn v) acc buf n = .ok ys) (hacc : ∀ a ∈ acc, a.Tidy) : ∀ a ∈ ys, a.Tidy := by
  have hstep : ∀ s b j s' i, (∀ a ∈ s, a.Tidy) → turn v s b j = .ok (some (s', i)) → ∀ a ∈ s', a.Tidy := by
    intro s b j s' i hs ht
    unfold turn at ht
    split at ht
    · cases ht
    · obtain ⟨type, _, ht⟩ := Except.bind_eq_ok.mp ht
      obtain ⟨len, _, ht⟩ := Except.bind_eq_ok.mp ht
      split at ht
      · cases ht
      · split at ht
        · cases ht
        · split at ht
          · cases ht
            exact hs
          · obtain ⟨a, ha, ht⟩ := Except.bind_eq_ok.mp ht
            cases ht
            intro b hb
            rcases List.mem_append.mp hb with hb | hb
            · exact hs b hb
            · cases List.mem_singleton.mp hb
              exact Cofaction.tidy_unpack ha
  obtain ⟨_, hys⟩ := loop_rule (P := fun s _ => ∀ a ∈ s, a.Tidy) hstep hacc h
  exact hys

/-- Packed actions that a loop reads with what they say survive, and it is handed all of them. -/
theorem survives_of_window (hxs : ∀ a ∈ xs, a.Tidy) (htotal : totalLength v xs = .ok m) (hbuf : m ≤ buf.length)
    (hpack : packFrom v xs buf = .ok out) (hloop : loop (turn v) acc (out ++ rest) n = .ok ys)
    (hys : ys.map Cofaction.content = acc.map Cofaction.content ++ xs.map fun a => a.packed.content) :
    (∀ a ∈ xs, a.Survives v) ∧ m ≤ n := by
  induction xs generalizing acc buf m n out with
  | nil =>
    cases htotal
    exact ⟨fun a ha => (by cases ha), Nat.zero_le n⟩
  | cons a xs ih =>
    obtain ⟨m, k, hm, hk, rfl⟩ := totalLength_cons.mp htotal
    have hslot : (buf.take m).length = m := List.length_take_of_le (by omega)
    obtain ⟨out, hout, rfl⟩ := (packFrom_cons hm (by omega)).mp hpack
    rw [List.append_assoc] at hloop
    have hturn := turn_frame hm hslot acc (out ++ rest) n
    have hends : turn v acc (a.frame v m (buf.take m) ++ (out ++ rest)) n ≠ .ok none := fun hends => by
      rw [loop_end hends] at hloop
      cases hloop
      have hlength := congrArg List.length hys
      rw [List.length_append, List.length_map, List.length_map, List.length_cons] at hlength
      omega
    by_cases hshort : n < 8 ∨ m % 65536 < 8
    · rw [if_pos hshort] at hturn
      exact absurd hturn hends
    rw [if_neg hshort] at hturn
    by_cases hlong : n < m % 65536
    · rw [if_pos hlong] at hturn
      rw [loop_error hturn] at hloop
      cases hloop
    rw [if_neg hlong] at hturn
    cases ha' : Cofaction.unpack v a.actionClass (a.frame v m (buf.take m) ++ (out ++ rest)) (m % 65536) with
    | error e =>
      rw [ha'] at hturn
      rw [loop_error hturn] at hloop
      cases hloop
    | ok a' =>
      rw [ha'] at hturn
      rw [loop_next advances_turn hturn] at hloop
      have hcontent := FirstTurn.head hloop hys
      have hsurvives : a.Survives v := by
        rcases Cofaction.survives_or_of_unpack hm hslot ha' hcontent with hs | ⟨hwrap, oxm, rfl, hoxm, _⟩
        · exact hs
        · obtain ⟨j, hj, rfl⟩ := Cofaction.length_setField hm
          have hle := SetFieldOxm.length_le hoxm (hxs _ List.mem_cons_self) hj
          have hmod := padded_mod (4 + j)
          have hpad := padded_lt (4 + j)
          have hlt := oxm.packedId.oxmLength.toNat_lt
          omega
      obtain ⟨hmod, _, hread⟩ := Cofaction.unpack_survives hsurvives hm hslot (out ++ rest)
      cases ha'.symm.trans hread
      rw [hmod, List.drop_left' (Cofaction.length_frame hm hslot)] at hloop
      obtain ⟨hrest, hle⟩ := ih (fun b hb => hxs b (List.mem_cons_of_mem a hb)) hk
        (show k ≤ (buf.drop m).length by rw [List.length_drop]; omega) hout hloop (by
          rw [hys, List.map_append, List.append_assoc, List.map_cons, ← Cofaction.content_reread]
          rfl)
      refine ⟨fun b hb => ?_, by omega⟩
      rcases List.mem_cons.mp hb with rfl | hb
      · exact hsurvives
      · exact hrest b hb

end Cofactions

/-! ## Instructions that were packed -/

namespace Cofinstruction

variable {v : UInt8} {i : Cofinstruction (List Cofaction)} {n : ℕ} {slot rest : List UInt8}

/-- What stands behind the structure. -/
def Tail (v : UInt8) (slot tail : List UInt8) : Cofinstruction (List Cofaction) → Prop
  | writeActions actions | applyActions actions | clearActions actions => Cofactions.packFrom v actions slot = .ok tail
  | experimenter _ expBody => tail = expBody
  | _ => tail = []

theorem fits (i : Cofinstruction (List Cofaction)) (n : ℕ) : Record.Fits i.instructionClass.layout (i.fields n) := by
  have htype : ∀ c : InstructionClass, c.type < 256 ^ 2 := fun c => by cases c <;> decide
  refine ⟨htype i.instructionClass, Nat.mod_lt _ (by decide), ?_⟩
  cases i with
  | gotoTable tableId => exact ⟨tableId.toNat_lt, rfl⟩
  | writeMetadata metadata metadataMask => exact ⟨metadata.toNat_lt, metadataMask.toNat_lt, rfl⟩
  | meter meterId => exact ⟨meterId.toNat_lt, rfl⟩
  | experimenter expId expBody => exact ⟨expId.toNat_lt, rfl⟩
  | _ => rfl

/-- What the length is made of. -/
theorem length_eq_ok (h : i.length v = .ok n) : v ∈ i.instructionClass.versions ∧
    (∀ actions, i.actions? = some actions → ∃ k, Cofactions.totalLength v actions = .ok k ∧ n = 8 + k) ∧
    Record.size i.instructionClass.layout ≤ n := by
  unfold length at h
  split at h
  · next hv =>
    refine ⟨hv, ?_⟩
    cases i with
    | writeActions actions | applyActions actions | clearActions actions =>
      obtain ⟨k, hk, h⟩ := Except.bind_eq_ok.mp h
      cases h
      refine ⟨fun as has => ?_, Nat.le_add_right 8 k⟩
      cases has
      exact ⟨k, liftActions_eq_ok.mp hk, rfl⟩
    | experimenter expId expBody =>
      cases h
      exact ⟨fun as has => (by cases has), Nat.le_add_right 8 _⟩
    | gotoTable | writeMetadata | meter =>
      cases h
      exact ⟨fun as has => (by cases has), le_rfl⟩
  · cases h

/-- The structure, before its tail is packed. -/
def head (i : Cofinstruction (List Cofaction)) (n : ℕ) (slot : List UInt8) : List UInt8 :=
  Record.write i.instructionClass.layout (i.fields n) (slot.take (Record.size i.instructionClass.layout))

theorem eight_le_size (i : Cofinstruction (List Cofaction)) : 8 ≤ Record.size i.instructionClass.layout := by
  cases i.instructionClass <;> decide

theorem length_head (h : Record.size i.instructionClass.layout ≤ slot.length) :
    (i.head n slot).length = Record.size i.instructionClass.layout := by
  have htake : (slot.take (Record.size i.instructionClass.layout)).length = Record.size i.instructionClass.layout :=
    List.length_take_of_le h
  rw [head, Record.length_write (fits i n) htake.ge, htake]

theorem pack_head (h : i.length v = .ok n) (hslot : slot.length = n) (rest : List UInt8) :
    i.pack v (slot ++ rest) n =
      i.packBody v (i.head n slot ++ (slot.drop (Record.size i.instructionClass.layout) ++ rest)) := by
  have hsize := (length_eq_ok h).2.2
  have height := i.eight_le_size
  rw [pack, if_neg (by omega), h]
  show (if n < n then _ else writeRecord _ (i.fields n) (slot ++ rest) >>= i.packBody v) = _
  rw [if_neg (lt_irrefl n), writeRecord_eq _ (by rw [List.length_append]; omega),
    List.take_append_of_le_length (by omega), List.drop_append_of_le_length (by omega)]
  rfl

/-- A list of actions is packed behind the structure. -/
theorem packActions_eq {actions : List Cofaction} {k : ℕ} (hk : Cofactions.totalLength v actions = .ok k)
    {front back : List UInt8} (hfront : front.length = 8) (hback : back.length = k) :
    ∃ out, out.length = k ∧ Cofactions.packFrom v actions back = .ok out ∧ ∀ rest, (do
      let n ← liftActions (Cofactions.totalLength v actions)
      return (front ++ (back ++ rest)).take 8 ++
        (← liftActions (Cofactions.pack v actions ((front ++ (back ++ rest)).drop 8) n)) :
          InstructionsAnswer (List UInt8)) = .ok (front ++ out ++ rest) := by
  obtain ⟨out, hout, hpack⟩ := Cofactions.packFrom_eq hk hback
  have hexact := hpack []
  rw [List.append_nil, List.append_nil] at hexact
  refine ⟨out, hout, hexact, fun rest => ?_⟩
  rw [hk]
  show (liftActions (Cofactions.pack v actions _ k) >>= fun b =>
    (.ok ((front ++ (back ++ rest)).take 8 ++ b) : InstructionsAnswer _)) = _
  rw [List.take_left' hfront, List.drop_left' hfront, Cofactions.pack_total hk, hpack rest, List.append_assoc]
  rfl

/-- An instruction keeps to its length: the structure, and its tail. -/
theorem pack_eq (h : i.length v = .ok n) (hslot : slot.length = n) :
    ∃ tail, Tail v (slot.drop (Record.size i.instructionClass.layout)) tail i ∧
      Record.size i.instructionClass.layout + tail.length = n ∧
      ∀ rest, i.pack v (slot ++ rest) n = .ok (i.head n slot ++ tail ++ rest) := by
  obtain ⟨hv, hactions, hsize⟩ := length_eq_ok h
  have hhead : (i.head n slot).length = Record.size i.instructionClass.layout := length_head (by omega)
  have hdrop : (slot.drop (Record.size i.instructionClass.layout)).length =
      n - Record.size i.instructionClass.layout := by
    rw [List.length_drop, hslot]
  cases i with
  | writeActions actions | applyActions actions | clearActions actions =>
    obtain ⟨k, hk, rfl⟩ := hactions actions rfl
    obtain ⟨out, hout, hexact, hpack⟩ := packActions_eq hk hhead (hdrop.trans (Nat.add_sub_cancel_left 8 k))
    exact ⟨out, hexact, by rw [hout]; rfl, fun rest => (pack_head h hslot rest).trans (hpack rest)⟩
  | experimenter expId expBody =>
    have hn : n = 8 + expBody.length := (Except.ok.inj ((if_pos hv).symm.trans h)).symm
    refine ⟨expBody, rfl, hn.symm, fun rest => (pack_head h hslot rest).trans ?_⟩
    have hback : (slot.drop 8).length = expBody.length := by
      rw [List.length_drop]
      omega
    have hwrite : (write (head (.experimenter expId expBody) n slot ++ (slot.drop 8 ++ rest))
        (head (.experimenter expId expBody) n slot).length expBody : InstructionsAnswer (List UInt8)) =
        .ok (head (.experimenter expId expBody) n slot ++ (expBody ++ (slot.drop 8 ++ rest).drop expBody.length)) :=
      write_append (by rw [List.length_append, hback]; exact Nat.le_add_right _ _)
    rw [hhead, List.drop_left' hback] at hwrite
    exact hwrite.trans (by rw [List.append_assoc])
  | gotoTable | writeMetadata | meter =>
    have hn : n = _ := (Except.ok.inj ((if_pos hv).symm.trans h)).symm
    have hnil := List.eq_nil_of_length_eq_zero (hdrop.trans (by rw [hn, Nat.sub_self]))
    refine ⟨[], rfl, hn.symm, fun rest => (pack_head h hslot rest).trans ?_⟩
    rw [hnil, List.append_nil]
    rfl

/-- The instruction comes back: it fits its length, its actions come back, and what is made of
it has the same length. -/
def Survives (v : UInt8) (i : Cofinstruction (List Cofaction)) : Prop :=
  ∃ n, i.length v = .ok n ∧ n < 65536 ∧ i.reread.length v = .ok n ∧
    ∀ actions, i.actions? = some actions → ∀ a ∈ actions, a.Survives v

theorem head_eq (i : Cofinstruction (List Cofaction)) (n : ℕ) (slot : List UInt8) :
    ∃ back, i.head n slot = octets 2 i.instructionClass.type ++ (octets 2 (n % 65536) ++ back) := ⟨_, rfl⟩

theorem field_type (i : Cofinstruction (List Cofaction)) (n : ℕ) (slot rest : List UInt8) :
    field (i.head n slot ++ rest) 0 2 = i.instructionClass.type := by
  have htype : i.instructionClass.type < 256 ^ 2 := by cases i.instructionClass <;> decide
  obtain ⟨back, hhead⟩ := i.head_eq n slot
  rw [hhead, List.append_assoc, field_octets_of_lt htype]

theorem field_length (i : Cofinstruction (List Cofaction)) (n : ℕ) (slot rest : List UInt8) :
    field (i.head n slot ++ rest) 2 2 = n % 65536 := by
  have hlt : n % 65536 < 256 ^ 2 := Nat.mod_lt n (by decide)
  obtain ⟨back, hhead⟩ := i.head_eq n slot
  rw [hhead, List.append_assoc, List.append_assoc, field_append_right (Nat.le_of_eq (length_octets 2 _)), length_octets,
    Nat.sub_self, field_octets_of_lt hlt]

theorem ofType_type (c : InstructionClass) : InstructionClass.ofType c.type = some c := by
  cases c <;> rfl

/-- The structure is read as it was written. -/
theorem unpack_head (h : i.length v = .ok n) (hslot : slot.length = n) {rest : List UInt8}
    (hrest : n ≤ (i.head n slot ++ rest).length) (hpos : 0 < n % 65536) :
    unpack v i.instructionClass (i.head n slot ++ rest) (n % 65536) =
      if n % 65536 < Record.size i.instructionClass.layout then raise .invalid
      else unpackRest v i.instructionClass (n % 65536) i.members (i.head n slot ++ rest) := by
  obtain ⟨hv, _, hsize⟩ := length_eq_ok h
  have hlen := i.field_length n slot rest
  have hmod := Nat.mod_le n 65536
  have htake : Record.size i.instructionClass.layout ≤ (slot.take (Record.size i.instructionClass.layout)).length := by
    rw [List.length_take_of_le (by omega)]
  have hhead : (i.head n slot).length = Record.size i.instructionClass.layout := length_head (by omega)
  have hread : Record.read i.instructionClass.layout (i.head n slot ++ rest) = i.fields n := by
    rw [Record.read_append hhead.ge, head, Record.read_write (fits i n) htake]
  rw [← hlen, unpack_eq (by omega) (by omega), if_neg (not_not.mpr hv), hread]
  rfl

/-- Actions that survive are read behind the structure. -/
theorem unpackActions_packed {actions : List Cofaction} {k : ℕ} (hactions : ∀ a ∈ actions, a.Survives v)
    (hk : Cofactions.totalLength v actions = .ok k) {front back tail : List UInt8} (hfront : front.length = 8)
    (hback : back.length = k) (htail : Cofactions.packFrom v actions back = .ok tail) (rest : List UInt8) :
    unpackActions v (8 + k) (front ++ (tail ++ rest)) = .ok (actions.map Cofaction.reread) := by
  have hloop := Cofactions.loop_packed hactions hk hback htail [] rest 0
  rw [unpackActions, List.drop_left' hfront, Nat.add_sub_cancel_left, Cofactions.unpack_total hk]
  rw [Nat.add_zero] at hloop
  rw [hloop]
  rfl

/-- A body is read behind the structure. -/
theorem unpackBody_packed {front body : List UInt8} (hfront : front.length = 8) (rest : List UInt8) :
    unpackBody (8 + body.length) (front ++ (body ++ rest)) = .ok body := by
  have hroom : 8 + (8 + body.length - 8) ≤ (front ++ (body ++ rest)).length := by
    rw [List.length_append, List.length_append]
    omega
  rw [unpackBody, read_eq hroom, List.drop_left' hfront, Nat.add_sub_cancel_left, List.take_left]

/-- An instruction that survives is read as it was. -/
theorem unpackInst_survives (hi : i.Survives v) (h : i.length v = .ok n) (hslot : slot.length = n) {tail : List UInt8}
    (htail : i.Tail v (slot.drop (Record.size i.instructionClass.layout)) tail)
    (hsum : Record.size i.instructionClass.layout + tail.length = n) (rest : List UInt8) :
    n % 65536 = n ∧ Cofinstructions.unpackInst v i.instructionClass (i.head n slot ++ (tail ++ rest)) (n % 65536) =
      .ok (i.reread, n) := by
  obtain ⟨n', hn', hlt, hreread, hactions⟩ := hi
  obtain rfl : n = n' := Except.ok.inj (h.symm.trans hn')
  have hmod : n % 65536 = n := Nat.mod_eq_of_lt hlt
  have height := i.eight_le_size
  obtain ⟨hv, htotal, hsize⟩ := length_eq_ok h
  have hhead : (i.head n slot).length = Record.size i.instructionClass.layout := length_head (by omega)
  have hunpack : unpack v i.instructionClass (i.head n slot ++ (tail ++ rest)) (n % 65536) = .ok i.reread := by
    rw [unpack_head h hslot (by rw [List.length_append, List.length_append]; omega) (by omega), if_neg (by omega), hmod]
    cases i with
    | writeActions actions | applyActions actions | clearActions actions =>
      obtain ⟨k, hk, rfl⟩ := htotal actions rfl
      have hback : (slot.drop 8).length = k := by
        rw [List.length_drop]
        omega
      show _ <$> unpackActions v (8 + k) _ = _
      rw [unpackActions_packed (hactions actions rfl) hk hhead hback htail]
      rfl
    | experimenter expId expBody =>
      have hn : n = 8 + expBody.length := (Except.ok.inj ((if_pos hv).symm.trans h)).symm
      have htail : tail = expBody := htail
      show experimenter (.ofNat expId.toNat) <$> unpackBody n _ = _
      rw [htail, hn, unpackBody_packed (hn ▸ hhead), UInt32.ofNat_toNat]
      rfl
    | gotoTable tableId => exact congrArg (fun t => Except.ok (gotoTable t)) UInt8.ofNat_toNat
    | writeMetadata metadata metadataMask =>
      exact congrArg₂ (fun m k => Except.ok (writeMetadata m k)) UInt64.ofNat_toNat UInt64.ofNat_toNat
    | meter meterId => exact congrArg (fun m => Except.ok (meter m)) UInt32.ofNat_toNat
  refine ⟨hmod, ?_⟩
  rw [Cofinstructions.unpackInst, hunpack]
  show (i.reread.length v >>= fun m => (.ok (i.reread, m) : InstructionsAnswer _)) = _
  rw [hreread]
  rfl

end Cofinstruction

/-! ## Sets that were packed -/

namespace Cofinstructions

variable {v : UInt8} {i : Cofinstruction (List Cofaction)} {insts : List (Cofinstruction (List Cofaction))}
  {n m : ℕ} {buf slot out rest : List UInt8} {s t : Unpacking}

theorem totalLength_cons : totalLength v (i :: insts) = .ok n ↔
    ∃ m k, i.length v = .ok m ∧ totalLength v insts = .ok k ∧ n = m + k := foldlM_add_cons

/-- The first instruction of a set, packed. -/
theorem packFrom_cons (h : i.length v = .ok m) (hslot : m ≤ slot.length) : ∃ tail,
    i.Tail v ((slot.take m).drop (Record.size i.instructionClass.layout)) tail ∧
      Record.size i.instructionClass.layout + tail.length = m ∧ ∀ {out}, packFrom v (i :: insts) slot = .ok out ↔
        ∃ out', packFrom v insts (slot.drop m) = .ok out' ∧ out = i.head m (slot.take m) ++ (tail ++ out') := by
  have htake : (slot.take m).length = m := List.length_take_of_le hslot
  obtain ⟨tail, htail, hsum, hpack⟩ := Cofinstruction.pack_eq h htake
  have hhead : (i.head m (slot.take m)).length = Record.size i.instructionClass.layout :=
    Cofinstruction.length_head (by omega)
  have hfront : (i.head m (slot.take m) ++ tail).length = m := by rw [List.length_append, hhead, hsum]
  have hone := hpack (slot.drop m)
  rw [List.take_append_drop] at hone
  refine ⟨tail, htail, hsum, fun {out} => ?_⟩
  rw [packFrom, h]
  show (i.pack v slot m >>= fun b => _) = _ ↔ _
  rw [hone]
  show (packFrom v insts ((i.head m (slot.take m) ++ tail ++ slot.drop m).drop m) >>= fun out' =>
    Except.ok ((i.head m (slot.take m) ++ tail ++ slot.drop m).take m ++ out')) = _ ↔ _
  rw [List.drop_left' hfront, List.take_left' hfront, Except.bind_eq_ok]
  constructor
  · rintro ⟨out', hout', h⟩
    exact ⟨out', hout', by rw [← Except.ok.inj h, List.append_assoc]⟩
  · rintro ⟨out', hout', rfl⟩
    exact ⟨out', hout', by rw [List.append_assoc]⟩

/-- Packing fills as many octets as the set takes. -/
theorem packFrom_eq (h : totalLength v insts = .ok n) (hslot : slot.length = n) :
    ∃ out, out.length = n ∧ packFrom v insts slot = .ok out := by
  induction insts generalizing n slot with
  | nil =>
    cases h
    rw [List.eq_nil_of_length_eq_zero hslot]
    exact ⟨[], rfl, rfl⟩
  | cons i insts ih =>
    obtain ⟨m, k, hm, hk, rfl⟩ := totalLength_cons.mp h
    obtain ⟨tail, _, hsum, hpack⟩ := @packFrom_cons v i insts m slot hm (by omega)
    obtain ⟨out, hout, hrest⟩ := ih hk (show (slot.drop m).length = k by rw [List.length_drop]; omega)
    have hhead : (i.head m (slot.take m)).length = Record.size i.instructionClass.layout :=
      Cofinstruction.length_head (by rw [List.length_take]; omega)
    refine ⟨_, ?_, hpack.mpr ⟨out, hrest, rfl⟩⟩
    rw [List.length_append, List.length_append, hhead, hout]
    omega

/-- The map with the instructions of a set, as they are read. -/
def readInto (m : Omap ℕ (Cofinstruction (List Cofaction))) (insts : List (Cofinstruction (List Cofaction))) :
    Omap ℕ (Cofinstruction (List Cofaction)) :=
  insts.foldl (fun m i => m.insert i.instructionClass.type i.reread) m

/-- Instructions that survive are taken off one by one. -/
theorem ends_packed (hinsts : ∀ i ∈ insts, i.Survives v) (h : totalLength v insts = .ok n) (hslot : slot.length = n)
    (hpack : packFrom v insts slot = .ok out) (hs : At buf s out) :
    ∃ t, Ends (body v buf) s (.ok t) ∧ t.instmap = readInto s.instmap insts := by
  induction insts generalizing n slot out s with
  | nil =>
    cases h
    rw [List.eq_nil_of_length_eq_zero hslot] at hpack
    cases hpack
    have hbody : body v buf s = .ok none := if_pos hs.buflen
    exact ⟨s, (ends_done hbody).mpr rfl, rfl⟩
  | cons i insts ih =>
    obtain ⟨m, k, hm, hk, rfl⟩ := totalLength_cons.mp h
    have htake : (slot.take m).length = m := List.length_take_of_le (by omega)
    obtain ⟨tail, htail, hsum, hcons⟩ := @packFrom_cons v i insts m slot hm (by omega)
    obtain ⟨out, hout, rfl⟩ := hcons.mp hpack
    have hhead : (i.head m (slot.take m)).length = Record.size i.instructionClass.layout :=
      Cofinstruction.length_head (by omega)
    have height := i.eight_le_size
    obtain ⟨hmod, hread⟩ := Cofinstruction.unpackInst_survives (hinsts i List.mem_cons_self) hm htake htail hsum out
    have hlen : field (i.head m (slot.take m) ++ (tail ++ out)) 2 2 = m := by rw [Cofinstruction.field_length, hmod]
    have hin : m ≤ (i.head m (slot.take m) ++ (tail ++ out)).length := by
      rw [List.length_append, List.length_append]
      omega
    have hc : InstructionClass.ofType (field (i.head m (slot.take m) ++ (tail ++ out)) 0 2) =
        some i.instructionClass := by
      rw [Cofinstruction.field_type, Cofinstruction.ofType_type]
    have hbody := body_inst hs (by omega) (by omega) hc (hlen.trans hmod.symm ▸ hread)
    have hnext := hs.next hin (s.instmap.insert i.instructionClass.type i.reread)
    have hdrop : (i.head m (slot.take m) ++ (tail ++ out)).drop m = out := by
      rw [← List.append_assoc]
      exact List.drop_left' (by rw [List.length_append, hhead, hsum])
    rw [hdrop] at hnext
    obtain ⟨t, ht, hmap⟩ := ih (fun j hj => hinsts j (List.mem_cons_of_mem i hj)) hk
      (show (slot.drop m).length = k by rw [List.length_drop]; omega) hout hnext
    exact ⟨t, (ends_next hbody).mpr ht, hmap⟩

/-! ### What a run takes off -/

/-- An instruction takes something. -/
def size (v : UInt8) (i : Cofinstruction (List Cofaction)) : ℕ :=
  match i.length v with
  | .ok n => n
  | .error _ => 1

theorem size_pos (v : UInt8) (i : Cofinstruction (List Cofaction)) : 0 < size v i := by
  unfold size
  split
  · next n hn =>
    have hsize := (Cofinstruction.length_eq_ok hn).2.2
    have height := i.eight_le_size
    omega
  · exact Nat.one_pos

theorem unpackActions_tidy {len : ℕ} {as : List Cofaction} (h : Cofinstruction.unpackActions v len buf = .ok as) :
    loop (Cofactions.turn v) [] (buf.drop 8) (len - 8) = .ok as ∧ ∀ a ∈ as, a.Tidy := by
  have hloop : loop (Cofactions.turn v) [] (buf.drop 8) (len - 8) = .ok as := by
    have hunpack := liftActions_eq_ok.mp h
    unfold Cofactions.unpack at hunpack
    split at hunpack
    · next hzero =>
      rw [hzero]
      exact hunpack
    · split at hunpack
      · cases hunpack
      · exact hunpack
  exact ⟨hloop, Cofactions.tidy_loop hloop fun a ha => by cases ha⟩

end Cofinstructions

namespace Cofinstruction

variable {v : UInt8} {c : InstructionClass} {i : Cofinstruction (List Cofaction)} {l : List UInt8} {n : ℕ}

def Tidy (i : Cofinstruction (List Cofaction)) : Prop := ∀ actions, i.actions? = some actions → ∀ a ∈ actions, a.Tidy

theorem tidy_unpackInst (hpos : 0 < field l 2 2) (hin : field l 2 2 ≤ l.length)
    (h : Cofinstructions.unpackInst v c l (field l 2 2) = .ok (i, n)) : i.Tidy ∧ i.length v = .ok n := by
  obtain ⟨i', hunpack, h⟩ := Except.bind_eq_ok.mp h
  obtain ⟨n', hn', h⟩ := Except.bind_eq_ok.mp h
  cases h
  refine ⟨?_, hn'⟩
  rw [unpack_eq hpos hin] at hunpack
  split at hunpack
  · cases hunpack
  split at hunpack
  · cases hunpack
  have hactions : ∀ wrap : List Cofaction → Cofinstruction (List Cofaction), (∀ as, (wrap as).actions? = some as) →
      wrap <$> unpackActions v (field l 2 2) l = .ok i → i.Tidy := by
    intro wrap hwrap hi as has
    cases hread : unpackActions v (field l 2 2) l with
    | error e =>
      rw [hread] at hi
      cases hi
    | ok ys =>
      rw [hread] at hi
      cases hi
      cases (hwrap ys).symm.trans has
      exact (Cofinstructions.unpackActions_tidy hread).2
  cases c with
  | writeActions => exact hactions .writeActions (fun _ => rfl) hunpack
  | applyActions => exact hactions .applyActions (fun _ => rfl) hunpack
  | clearActions => exact hactions .clearActions (fun _ => rfl) hunpack
  | experimenter =>
    obtain ⟨body, _, h⟩ := Except.bind_eq_ok.mp hunpack
    cases h
    exact fun as has => by cases has
  | gotoTable | writeMetadata | meter =>
    cases hunpack
    exact fun as has => by cases has

end Cofinstruction

namespace Cofinstructions

variable {v : UInt8} {i : Cofinstruction (List Cofaction)} {insts : List (Cofinstruction (List Cofaction))}
  {n m : ℕ} {buf slot out rest l : List UInt8} {s t : Unpacking}

/-- What a run takes off is what it takes in, less what is replaced; where nothing is, all
that was there is at the end. -/
theorem weight_of_run (hs : At buf s l) (hoff : s.off ≤ buf.length) {k : ℕ}
    (hrun : Iterate.run (body v buf) k s = some (.ok t)) :
    t.off ≤ buf.length ∧ t.instmap.weight (size v) + s.off ≤ s.instmap.weight (size v) + t.off ∧
      (t.instmap.weight (size v) + s.off = s.instmap.weight (size v) + t.off →
        ∀ k i, s.instmap.find? k = some i → t.instmap.find? k = some i) := by
  induction k generalizing s l with
  | zero => cases hrun
  | succ k ih =>
    have hdoes := does_body (v := v) hs
    rw [Iterate.run] at hrun
    generalize hbody : body v buf s = r at hdoes hrun
    cases hdoes with
    | ends =>
      cases hrun
      exact ⟨hoff, le_rfl, fun _ k i h => h⟩
    | outside => cases hrun
    | short =>
      cases hrun
      exact ⟨hoff, le_rfl, fun _ k i h => h⟩
    | long => cases hrun
    | unknown => exact absurd ⟨k, hrun⟩ (not_ends_of_fixed hbody)
    | rejected => cases hrun
    | @inst c inst n hlen hin hc hinst =>
      by_cases hn : n ≤ l.length
      · have hleft : l.length = buf.length - s.off := by rw [← hs.left, List.length_drop]
        obtain ⟨hend, hle, hkeep⟩ := ih (hs.next hn _) (show s.off + n ≤ buf.length by omega) hrun
        have hsize : size v inst = n := by rw [size, (Cofinstruction.tidy_unpackInst (by omega) hin hinst).2]
        have hinsert := Omap.weight_insert (size v) s.instmap c.type inst
        rw [hsize] at hinsert
        dsimp only at hle hkeep
        refine ⟨hend, by omega, fun heq k i hi => hkeep (by omega) k i ?_⟩
        rw [Omap.find?_insert]
        split
        · next hk =>
          rw [hk] at hi
          rw [hi, Option.map_some, Option.getD_some] at hinsert
          have hpos := size_pos v i
          omega
        · exact hi
      · have hnext := body_outside (v := v) hs (by omega : l.length < n) (s.instmap.insert c.type inst)
        cases k with
        | zero => cases hrun
        | succ k =>
          dsimp only at hrun
          rw [Iterate.run, hnext] at hrun
          cases hrun

end Cofinstructions

namespace Cofinstruction

variable {v : UInt8} {i i' : Cofinstruction (List Cofaction)} {slot tail rest : List UInt8} {n n' : ℕ}

theorem tidy_reread (a : Cofaction) : a.reread.Tidy := by
  cases a with
  | setField oxm =>
    cases oxm with
    | oxm id => trivial
    | derived x =>
      obtain ⟨id, body⟩ := x
      cases body with
      | fixed w value mask => trivial
      | exp expId value mask => exact fun h => if_neg (by rw [h]; decide)
  | _ => trivial

/-- What is read has the length it had. -/
theorem totalLength_reread {actions : List Cofaction} (h : ∀ a ∈ actions, a.Tidy) :
    Cofactions.totalLength v (actions.map Cofaction.reread) = Cofactions.totalLength v actions := by
  refine Cofactions.totalLength_of_content h (fun a ha => ?_) ?_
  · obtain ⟨b, _, rfl⟩ := List.mem_map.mp ha
    exact tidy_reread b
  · rw [List.map_map]
    exact List.map_congr_left fun a _ => a.content_reread

theorem length_actions {wrap : List Cofaction → Cofinstruction (List Cofaction)}
    (hwrap : wrap = writeActions ∨ wrap = applyActions ∨ wrap = clearActions) (as : List Cofaction) :
    (wrap as).length v = if v ∈ [Openflow12.OFP_VERSION, Openflow13.OFP_VERSION] then
      liftActions (Cofactions.totalLength v as) >>= fun n => .ok (8 + n) else raise .badVersion := by
  rcases hwrap with rfl | rfl | rfl <;> rfl

/-- One that is read with what it says has the length it had. -/
theorem length_of_content (hi : i.Tidy) (hi' : i'.Tidy) (h : i'.content = i.packed.content) :
    i'.length v = i.length v := by
  have hactions : ∀ {wrap : List Cofaction → Cofinstruction (List Cofaction)},
      wrap = writeActions ∨ wrap = applyActions ∨ wrap = clearActions → ∀ {as as' : List Cofaction},
      (∀ a ∈ as, a.Tidy) → (∀ a ∈ as', a.Tidy) →
      as'.map Cofaction.content = (as.map Cofaction.packed).map Cofaction.content →
      (wrap as').length v = (wrap as).length v := by
    intro wrap hwrap as as' has has' hcontent
    rw [length_actions hwrap, length_actions hwrap,
      Cofactions.totalLength_of_content has has' (hcontent.trans List.map_map)]
  cases i with
  | writeActions as =>
    cases i' with
    | writeActions as' => exact hactions (.inl rfl) (hi as rfl) (hi' as' rfl) (writeActions.inj h)
    | _ => cases h
  | applyActions as =>
    cases i' with
    | applyActions as' => exact hactions (.inr (.inl rfl)) (hi as rfl) (hi' as' rfl) (applyActions.inj h)
    | _ => cases h
  | clearActions as =>
    cases i' with
    | clearActions as' => exact hactions (.inr (.inr rfl)) (hi as rfl) (hi' as' rfl) (clearActions.inj h)
    | _ => cases h
  | gotoTable | writeMetadata | meter =>
    cases i' <;> cases h
    rfl
  | experimenter expId expBody =>
    cases i' <;> cases h
    rfl

theorem length_reread (hi : i.Tidy) : i.reread.length v = i.length v := by
  cases i with
  | writeActions as =>
    show (writeActions (as.map Cofaction.reread)).length v = _
    rw [length_actions (.inl rfl), length_actions (.inl rfl), totalLength_reread (hi as rfl)]
  | applyActions as =>
    show (applyActions (as.map Cofaction.reread)).length v = _
    rw [length_actions (.inr (.inl rfl)), length_actions (.inr (.inl rfl)), totalLength_reread (hi as rfl)]
  | clearActions as =>
    show (clearActions (as.map Cofaction.reread)).length v = _
    rw [length_actions (.inr (.inr rfl)), length_actions (.inr (.inr rfl)), totalLength_reread (hi as rfl)]
  | _ => rfl

/-- Actions that are read with what they say survive, and all of them are within the length. -/
theorem survives_of_unpackActions {as ys : List Cofaction} {k len : ℕ} (has : ∀ a ∈ as, a.Tidy)
    (hk : Cofactions.totalLength v as = .ok k) {front back : List UInt8} (hfront : front.length = 8)
    (hback : back.length = k) (hpack : Cofactions.packFrom v as back = .ok tail)
    (hread : unpackActions v len (front ++ (tail ++ rest)) = .ok ys)
    (hcontent : ys.map Cofaction.content = (as.map Cofaction.packed).map Cofaction.content) :
    (∀ a ∈ as, a.Survives v) ∧ k ≤ len - 8 := by
  obtain ⟨hloop, _⟩ := Cofinstructions.unpackActions_tidy hread
  rw [List.drop_left' hfront] at hloop
  exact Cofactions.survives_of_window has hk hback.ge hpack hloop (hcontent.trans List.map_map)

/-- An instruction that is read with what it says survives. -/
theorem survives_of_unpackInst (hi : i.Tidy) (h : i.length v = .ok n) (hslot : slot.length = n)
    (htail : i.Tail v (slot.drop (Record.size i.instructionClass.layout)) tail)
    (hsum : Record.size i.instructionClass.layout + tail.length = n) (hpos : 0 < n % 65536)
    (hunpack : Cofinstructions.unpackInst v i.instructionClass (i.head n slot ++ (tail ++ rest)) (n % 65536) =
      .ok (i', n'))
    (hcontent : i'.content = i.packed.content) : i.Survives v ∧ n' = n := by
  obtain ⟨hv, htotal, hsize⟩ := length_eq_ok h
  have height := i.eight_le_size
  have hmod := Nat.mod_le n 65536
  have hhead : (i.head n slot).length = Record.size i.instructionClass.layout := length_head (by omega)
  have hin : n ≤ (i.head n slot ++ (tail ++ rest)).length := by
    rw [List.length_append, List.length_append]
    omega
  have hlen := i.field_length n slot (tail ++ rest)
  rw [← hlen] at hunpack
  obtain ⟨hi', hn'⟩ := tidy_unpackInst (by omega) (by omega) hunpack
  have hsame : n' = n := Except.ok.inj (hn'.symm.trans ((length_of_content hi hi' hcontent).trans h))
  refine ⟨?_, hsame⟩
  rw [hlen] at hunpack
  obtain ⟨i'', hread, hrest⟩ := Except.bind_eq_ok.mp hunpack
  obtain ⟨_, _, hpair⟩ := Except.bind_eq_ok.mp hrest
  cases hpair
  rw [unpack_head h hslot hin hpos] at hread
  split at hread
  · cases hread
  next hlong =>
  have hsurvives : n < 65536 → (∀ actions, i.actions? = some actions → ∀ a ∈ actions, a.Survives v) → i.Survives v :=
    fun hlt hactions => ⟨n, h, hlt, (length_reread hi).trans h, hactions⟩
  cases i with
  | writeActions as | applyActions as | clearActions as =>
    obtain ⟨k, hk, rfl⟩ := htotal as rfl
    change _ <$> unpackActions v ((8 + k) % 65536) _ = _ at hread
    cases hys : unpackActions v ((8 + k) % 65536) _ with
    | error e =>
      rw [hys] at hread
      cases hread
    | ok ys =>
      rw [hys] at hread
      cases hread
      have hback : (slot.drop 8).length = k := by
        rw [List.length_drop]
        omega
      obtain ⟨has, hle⟩ := survives_of_unpackActions (hi as rfl) hk hhead hback htail hys
        (Option.some.inj (congrArg actions? hcontent))
      refine hsurvives (by omega) fun as' has' => ?_
      cases has'
      exact has
  | experimenter expId expBody =>
    have hn : n = 8 + expBody.length := (Except.ok.inj ((if_pos hv).symm.trans h)).symm
    change _ <$> unpackBody (n % 65536) _ = _ at hread
    have hroom : 8 + (n % 65536 - 8) ≤ (head (.experimenter expId expBody) n slot ++ (tail ++ rest)).length := by
      change ¬n % 65536 < 8 at hlong
      omega
    rw [unpackBody, read_eq hroom] at hread
    cases hread
    have hbody := congrArg List.length (experimenter.inj hcontent).2
    rw [List.length_take_of_le (by rw [List.length_drop]; omega)] at hbody
    change ¬n % 65536 < 8 at hlong
    exact hsurvives (by omega) fun as has => by cases has
  | gotoTable | writeMetadata | meter =>
    have hn : n = _ := (Except.ok.inj ((if_pos hv).symm.trans h)).symm
    have hall : ∀ c : InstructionClass, Record.size c.layout < 65536 := fun c => by cases c <;> decide
    exact hsurvives (hn.trans_lt (hall _)) fun as has => by cases has

end Cofinstruction

namespace Cofinstructions

variable {v : UInt8} {insts : List (Cofinstruction (List Cofaction))} {n : ℕ} {buf slot out : List UInt8}
  {s t : Unpacking}

/-- Where nothing is replaced, the instructions are read where they were packed. -/
theorem survives_of_ends (htidy : ∀ i ∈ insts, i.Tidy) (h : totalLength v insts = .ok n) (hslot : slot.length = n)
    (hpack : packFrom v insts slot = .ok out) (hs : At buf s out) (hoff : s.off ≤ buf.length)
    (hends : Ends (body v buf) s (.ok t)) (hend : t.off = buf.length)
    (hweight : t.instmap.weight (size v) + s.off = s.instmap.weight (size v) + t.off)
    (hfinal : ∀ i ∈ insts, ∃ j, t.instmap.find? i.instructionClass.type = some j ∧ j.content = i.packed.content) :
    ∀ i ∈ insts, i.Survives v := by
  induction insts generalizing n slot out s with
  | nil => exact fun i hi => by cases hi
  | cons i insts ih =>
    obtain ⟨m, k, hm, hk, rfl⟩ := totalLength_cons.mp h
    have htake : (slot.take m).length = m := List.length_take_of_le (by omega)
    obtain ⟨tail, htail, hsum, hcons⟩ := @packFrom_cons v i insts m slot hm (by omega)
    obtain ⟨out, hout, rfl⟩ := hcons.mp hpack
    have height := i.eight_le_size
    have hsize := (Cofinstruction.length_eq_ok hm).2.2
    have hhead : (i.head m (slot.take m)).length = Record.size i.instructionClass.layout :=
      Cofinstruction.length_head (by omega)
    have hlong : m ≤ (i.head m (slot.take m) ++ (tail ++ out)).length := by
      rw [List.length_append, List.length_append]
      omega
    have hleft : (i.head m (slot.take m) ++ (tail ++ out)).length = buf.length - s.off := by
      rw [← hs.left, List.length_drop]
    have hlen := i.field_length m (slot.take m) (tail ++ out)
    have hdoes := does_body (v := v) hs
    generalize hbody : body v buf s = r at hdoes
    cases hdoes with
    | ends hl =>
      rw [hl] at hlong
      exact absurd hlong (by rw [List.length_nil]; omega)
    | outside hpos hshort => omega
    | short =>
      cases (ends_done hbody).mp hends
      omega
    | long => cases (ends_error hbody).mp hends
    | unknown => exact absurd hends (not_ends_of_fixed hbody)
    | rejected => cases (ends_error hbody).mp hends
    | @inst c inst n' hfour hin hc hinst =>
      have hclass : c = i.instructionClass := by
        rw [Cofinstruction.field_type, Cofinstruction.ofType_type] at hc
        exact (Option.some.inj hc).symm
      subst hclass
      have hends' := (ends_next hbody).mp hends
      have hfit : n' ≤ (i.head m (slot.take m) ++ (tail ++ out)).length := by
        by_contra hover
        have hnext := body_outside (v := v) hs (Nat.lt_of_not_le hover) (s.instmap.insert i.instructionClass.type inst)
        cases (ends_error hnext).mp hends'
      have hnext := hs.next hfit (s.instmap.insert i.instructionClass.type inst)
      obtain ⟨j, hrun⟩ := hends'
      obtain ⟨_, hle, hkeep⟩ := weight_of_run hnext (show s.off + n' ≤ buf.length by omega) hrun
      have hinstsize : size v inst = n' := by rw [size, (Cofinstruction.tidy_unpackInst (by omega) hin hinst).2]
      have hinsert := Omap.weight_insert (size v) s.instmap i.instructionClass.type inst
      rw [hinstsize] at hinsert
      dsimp only at hle hkeep
      -- nothing is replaced, now or later
      have hequal : t.instmap.weight (size v) + (s.off + n') =
          (s.instmap.insert i.instructionClass.type inst).weight (size v) + t.off := by omega
      obtain ⟨j', hj', hcontent⟩ := hfinal i List.mem_cons_self
      have hfound := hkeep hequal i.instructionClass.type inst (by rw [Omap.find?_insert, if_pos rfl])
      cases hj'.symm.trans hfound
      rw [hlen] at hinst
      obtain ⟨hsurvives, rfl⟩ := Cofinstruction.survives_of_unpackInst (htidy i List.mem_cons_self) hm htake htail hsum
        (by omega) hinst hcontent
      have hdrop : (i.head n' (slot.take n') ++ (tail ++ out)).drop n' = out := by
        rw [← List.append_assoc]
        exact List.drop_left' (by rw [List.length_append, hhead, hsum])
      rw [hdrop] at hnext
      have hrest := ih (fun b hb => htidy b (List.mem_cons_of_mem i hb)) hk
        (show (slot.drop n').length = k by rw [List.length_drop]; omega) hout hnext
        (show s.off + n' ≤ buf.length by omega)
        ⟨j, hrun⟩ hequal fun b hb => hfinal b (List.mem_cons_of_mem i hb)
      intro b hb
      rcases List.mem_cons.mp hb with rfl | hb
      · exact hsurvives
      · exact hrest b hb

theorem tidy_of_run {l : List UInt8} (hs : At buf s l) {k : ℕ} (hrun : Iterate.run (body v buf) k s = some (.ok t))
    (htidy : ∀ k i, s.instmap.find? k = some i → i.Tidy) : ∀ k i, t.instmap.find? k = some i → i.Tidy := by
  induction k generalizing s l with
  | zero => cases hrun
  | succ k ih =>
    have hdoes := does_body (v := v) hs
    rw [Iterate.run] at hrun
    generalize hbody : body v buf s = r at hdoes hrun
    cases hdoes with
    | ends =>
      cases hrun
      exact htidy
    | outside => cases hrun
    | short =>
      cases hrun
      exact htidy
    | long => cases hrun
    | unknown => exact absurd ⟨k, hrun⟩ (not_ends_of_fixed hbody)
    | rejected => cases hrun
    | @inst c inst n hlen hin hc hinst =>
      by_cases hn : n ≤ l.length
      · refine ih (hs.next hn _) hrun fun k i hi => ?_
        rw [Omap.find?_insert] at hi
        split at hi
        · cases hi
          exact (Cofinstruction.tidy_unpackInst (by omega) hin hinst).1
        · exact htidy k i hi
      · have hnext := body_outside (v := v) hs (by omega : l.length < n) (s.instmap.insert c.type inst)
        cases (ends_error hnext).mp ⟨k, hrun⟩

theorem sum_size (h : totalLength v insts = .ok n) : (insts.map (size v)).sum = n := by
  induction insts generalizing n with
  | nil => exact Except.ok.inj h
  | cons i insts ih =>
    obtain ⟨m, k, hm, hk, rfl⟩ := totalLength_cons.mp h
    rw [List.map_cons, List.sum_cons, ih hk, size, hm]

/-- Instructions that say the same take the same. -/
theorem map_size_of_content {insts' : List (Cofinstruction (List Cofaction))} (h : ∀ i ∈ insts, i.Tidy)
    (h' : ∀ i ∈ insts', i.Tidy)
    (hcontent : insts'.map Cofinstruction.content = insts.map fun i => i.packed.content) :
    insts'.map (size v) = insts.map (size v) := by
  induction insts generalizing insts' with
  | nil => rw [List.map_eq_nil_iff.mp hcontent]
  | cons i insts ih =>
    cases insts' with
    | nil => cases hcontent
    | cons i' insts' =>
      obtain ⟨hhead, htail⟩ := List.cons.inj hcontent
      have hlength :=
        Cofinstruction.length_of_content (v := v) (h i List.mem_cons_self) (h' i' List.mem_cons_self) hhead
      rw [List.map_cons, List.map_cons, size, hlength,
        ih (fun j hj => h j (List.mem_cons_of_mem i hj)) (fun j hj => h' j (List.mem_cons_of_mem i' hj)) htail]
      rfl

theorem totalLength_of_survives (h : ∀ i ∈ insts, i.Survives v) : ∃ n, totalLength v insts = .ok n := by
  induction insts with
  | nil => exact ⟨0, rfl⟩
  | cons i insts ih =>
    obtain ⟨m, hm, _⟩ := h i List.mem_cons_self
    obtain ⟨k, hk⟩ := ih fun j hj => h j (List.mem_cons_of_mem i hj)
    exact ⟨m + k, totalLength_cons.mpr ⟨m, k, hm, hk, rfl⟩⟩

/-- A set that is not empty is longer than a header. -/
theorem totalLength_cases (h : totalLength v insts = .ok n) : n = 0 ∧ insts = [] ∨ 8 ≤ n := by
  cases insts with
  | nil => exact .inl ⟨(Except.ok.inj h).symm, rfl⟩
  | cons i insts =>
    obtain ⟨m, k, hm, _, rfl⟩ := totalLength_cons.mp h
    have hsize := (Cofinstruction.length_eq_ok hm).2.2
    have height := i.eight_le_size
    exact .inr (by omega)

section

variable {instmap : Omap ℕ (Cofinstruction (List Cofaction))}

theorem pack_total (h : totalLength v instmap.values = .ok n) (buf : List UInt8) :
    pack v instmap buf n = packFrom v instmap.values buf := by
  rw [pack, h]
  exact if_neg (lt_irrefl n)

/-- Each instruction is under its type. -/
def Keyed {α : Type} (instmap : Omap ℕ (Cofinstruction α)) : Prop :=
  ∀ k i, instmap.find? k = some i → i.instructionClass.type = k

/-- Instructions read in their order make the map again. -/
theorem readInto_values (hkeyed : Keyed instmap) :
    readInto .empty instmap.values = instmap.map fun _ i => i.reread := by
  rw [readInto, Omap.values, List.foldl_map, ← Omap.foldl_insert]
  refine List.foldl_ext _ _ _ fun m e he => ?_
  rw [hkeyed e.1 e.2 (Omap.find?_eq_some.mpr he)]

theorem content_reread (i : Cofinstruction (List Cofaction)) : i.reread.content = i.packed.content := by
  have hactions : ∀ as : List Cofaction, (as.map Cofaction.reread).map Cofaction.content =
      (as.map Cofaction.packed).map Cofaction.content := fun as => by
    rw [List.map_map, List.map_map]
    exact List.map_congr_left fun a _ => a.content_reread
  cases i with
  | writeActions as => exact congrArg Cofinstruction.writeActions (hactions as)
  | applyActions as => exact congrArg Cofinstruction.applyActions (hactions as)
  | clearActions as => exact congrArg Cofinstruction.clearActions (hactions as)
  | _ => rfl

/-- A set of instructions that survive comes back. -/
theorem roundTrips_of_survives (hkeyed : Keyed instmap) (h : ∀ i ∈ instmap.values, i.Survives v) :
    RoundTrips v instmap := by
  obtain ⟨n, hn⟩ := totalLength_of_survives h
  refine ⟨n, hn, fun buf hbuf => ?_⟩
  obtain ⟨out, hout, hpack⟩ := packFrom_eq hn hbuf
  obtain ⟨t, ht, hmap⟩ := ends_packed h hn hbuf hpack (at_start out)
  have hread : t.instmap = instmap.map fun _ i => i.reread := hmap.trans (readInto_values hkeyed)
  refine ⟨out, t.instmap, (pack_total hn buf).trans hpack, ?_, ?_⟩
  · rw [Unpacks]
    split
    · next hshort =>
      change out.length < 4 at hshort
      rcases totalLength_cases hn with ⟨_, hnil⟩ | height
      · rw [hmap, hnil]
        rfl
      · omega
    · exact ⟨_, ht, rfl⟩
  · rw [hread, Omap.map_map]
    exact congrArg instmap.map (funext fun _ => funext content_reread)

/-- Without masks that no flag tells of, nothing else comes back from a blank buffer. -/
theorem survives_of_blank (hkeyed : Keyed instmap) (htidy : ∀ i ∈ instmap.values, i.Tidy)
    (hn : totalLength v instmap.values = .ok n) (hpack : pack v instmap (.replicate n 0) n = .ok out)
    {m : Omap ℕ (Cofinstruction (List Cofaction))} (hunpack : Unpacks v out (.ok m))
    (hcontent : m.map (fun _ i => i.content) = instmap.map fun _ i => i.packed.content) :
    ∀ i ∈ instmap.values, i.Survives v := by
  have hzeros : (List.replicate n (0 : UInt8)).length = n := List.length_replicate
  rw [pack_total hn] at hpack
  obtain ⟨out', hout, hpacked⟩ := packFrom_eq hn hzeros
  cases hpacked.symm.trans hpack
  rcases totalLength_cases hn with ⟨_, hnil⟩ | height
  · rw [hnil]
    exact fun i hi => by cases hi
  rw [Unpacks, if_neg (by change ¬out.length < 4; omega)] at hunpack
  obtain ⟨r, hends, hr⟩ := hunpack
  obtain ⟨t, rfl, rfl⟩ : ∃ t, r = .ok t ∧ m = t.instmap := by
    cases r with
    | error e => cases hr
    | ok t => exact ⟨t, rfl, Except.ok.inj hr⟩
  have hstart := at_start out
  obtain ⟨k, hrun⟩ := id hends
  -- what is read takes as much as what was packed
  have hvalues : t.instmap.values.map Cofinstruction.content = instmap.values.map fun i => i.packed.content := by
    rw [← Omap.values_map, hcontent, Omap.values_map]
  have htidy' : ∀ i ∈ t.instmap.values, i.Tidy := fun i hi => by
    obtain ⟨e, he, rfl⟩ := List.mem_map.mp hi
    exact tidy_of_run hstart hrun (fun k i hi => by cases hi) e.1 e.2 (Omap.find?_eq_some.mpr he)
  have hweight : t.instmap.weight (size v) = n := by
    rw [Omap.weight, map_size_of_content htidy htidy' hvalues, sum_size hn]
  obtain ⟨hend, hle, _⟩ := weight_of_run hstart (Nat.zero_le _) hrun
  have hnone : (start out).instmap.weight (size v) = 0 := rfl
  have hoff : (start out).off = 0 := rfl
  refine survives_of_ends htidy hn hzeros hpack hstart (Nat.zero_le _) hends (by omega) (by omega) ?_
  intro i hi
  obtain ⟨e, he, rfl⟩ := List.mem_map.mp hi
  have hfound : instmap.find? e.1 = some e.2 := Omap.find?_eq_some.mpr he
  have hsame := congrArg (Omap.find? · e.1) hcontent
  simp only [Omap.find?_map, hfound, Option.map_some, Option.map_eq_some_iff] at hsame
  rwa [hkeyed e.1 e.2 hfound]

/-- Without such masks, no other set does. -/
theorem roundTrips_iff_survives (hkeyed : Keyed instmap) (htidy : ∀ i ∈ instmap.values, i.Tidy) :
    RoundTrips v instmap ↔ ∀ i ∈ instmap.values, i.Survives v := by
  refine ⟨fun ⟨n, hn, hall⟩ => ?_, roundTrips_of_survives hkeyed⟩
  obtain ⟨out, m, hpack, hunpack, hcontent⟩ := hall _ List.length_replicate
  exact survives_of_blank hkeyed htidy hn hpack hunpack hcontent

end

end Cofinstructions
end RoflCommon
