/-
`cofflowmod`, and the message `cofmsg_flow_mod` around it.

In OpenFlow 1.2 and 1.3 a match of its own length, padded, and the instructions follow a
fixed part. `unpack` looks for the instructions behind the match as long as the match that it
has decoded would be packed. OpenFlow 1.0 has the match in front, actions behind, and no
room for the table, the mask of the cookie, the group, and ports of more than 16 bits.

What a flow-mod says comes back from the wire where its parts do, and where the length of
the message fits into its 16 bits: otherwise `cofmsg_flow_mod::unpack` compares the length
it has read with that of what it has decoded, and throws (`flowMod_comesBack_iff`).
-/
import RoflCommon.Openflow.InstructionPack
import RoflCommon.Openflow.OfpMatch

namespace RoflCommon

open Octets Window

inductive FlowModException
  | invalid
  | badVersion
  | badRequestBadLen
  | badRequestBadType
  | codec (e : CodecException)
  | instructions (e : InstructionsException)
deriving DecidableEq, Repr

abbrev FlowModAnswer (α : Type) := Except (Fault FlowModException) α

/-- The exceptions of the match. -/
def liftOxms {α : Type} (r : Except MatchException α) : FlowModAnswer α := rethrow .codec (liftMatch r)

theorem liftOxms_eq_ok {α : Type} {r : Except MatchException α} {a : α} : liftOxms r = .ok a ↔ r = .ok a := by
  rw [liftOxms, rethrow_eq_ok]
  cases r with
  | ok b => exact ⟨fun h => congrArg Except.ok (Except.ok.inj h), fun h => congrArg Except.ok (Except.ok.inj h)⟩
  | error e => exact ⟨fun h => (by cases h), fun h => by cases h⟩

/-- The match as `pack_of13` leaves it. -/
def Cofmatch.packed (m : Cofmatch) : Cofmatch := { m with oxms := m.oxms.map fun _ o => o.packed }

/-- `match` is `cofmatch` here. -/
structure Cofflowmod where
  cofmatch : Cofmatch
  actions : List Cofaction
  instructions : Omap ℕ (Cofinstruction (List Cofaction))
  command : UInt8
  tableId : UInt8
  idleTimeout : UInt16
  hardTimeout : UInt16
  cookie : UInt64
  cookieMask : UInt64
  priority : UInt16
  bufferId : UInt32
  outPort : UInt32
  outGroup : UInt32
  flags : UInt16
deriving DecidableEq

namespace Cofflowmod

def new (v : UInt8) : Cofflowmod where
  cofmatch := .new v
  actions := []
  instructions := .empty
  command := 0
  tableId := 0
  idleTimeout := 0
  hardTimeout := 0
  cookie := 0
  cookieMask := 0
  priority := 0
  bufferId := Openflow.OFP_NO_BUFFER
  outPort := Openflow.OFPP_ANY
  outGroup := Openflow.OFPG_ANY
  flags := 0

def clear (f : Cofflowmod) : Cofflowmod :=
  { f with cofmatch := { f.cofmatch with oxms := .empty }, actions := [], instructions := .empty }

/-- The versions of actions and instructions are an argument of their codecs. -/
def setVersion (f : Cofflowmod) (v : UInt8) : Cofflowmod := { f with cofmatch := { f.cofmatch with ofVersion := v } }

/-- `struct ofp10_flow_mod`, behind the match. -/
def layout10 : Record.Layout := [.field 8, .field 2, .field 2, .field 2, .field 2, .field 4, .field 2, .field 2]

/-- `struct ofp13_flow_mod`. -/
def layout13 : Record.Layout :=
  [.field 8, .field 8, .field 1, .field 1, .field 2, .field 2, .field 2, .field 4, .field 4, .field 4, .field 2, .pad 2]

def fields10 (f : Cofflowmod) : List ℕ :=
  [f.cookie.toNat, f.command.toNat, f.idleTimeout.toNat, f.hardTimeout.toNat, f.priority.toNat, f.bufferId.toNat,
   f.outPort.toNat % 65536, f.flags.toNat]

def fields13 (f : Cofflowmod) : List ℕ :=
  [f.cookie.toNat, f.cookieMask.toNat, f.tableId.toNat, f.command.toNat, f.idleTimeout.toNat, f.hardTimeout.toNat,
   f.priority.toNat, f.bufferId.toNat, f.outPort.toNat, f.outGroup.toNat, f.flags.toNat]

def setFields10 (f : Cofflowmod) : List ℕ → Cofflowmod
  | [cookie, command, idleTimeout, hardTimeout, priority, bufferId, outPort, flags] =>
    { f with
      cookie := .ofNat cookie, command := .ofNat (command % 256), idleTimeout := .ofNat idleTimeout,
      hardTimeout := .ofNat hardTimeout, priority := .ofNat priority, bufferId := .ofNat bufferId,
      outPort := .ofNat outPort, flags := .ofNat flags }
  | _ => f

def setFields13 (f : Cofflowmod) : List ℕ → Cofflowmod
  | [cookie, cookieMask, tableId, command, idleTimeout, hardTimeout, priority, bufferId, outPort, outGroup, flags] =>
    { f with
      cookie := .ofNat cookie, cookieMask := .ofNat cookieMask, tableId := .ofNat tableId, command := .ofNat command,
      idleTimeout := .ofNat idleTimeout, hardTimeout := .ofNat hardTimeout, priority := .ofNat priority,
      bufferId := .ofNat bufferId, outPort := .ofNat outPort, outGroup := .ofNat outGroup, flags := .ofNat flags }
  | _ => f

def length (v : UInt8) (f : Cofflowmod) : FlowModAnswer ℕ :=
  if v = Openflow10.OFP_VERSION then do return 64 + (← rethrow .codec (Cofactions.totalLength v f.actions))
  else if v = Openflow12.OFP_VERSION ∨ v = Openflow13.OFP_VERSION then do
    return 40 + (← liftOxms f.cofmatch.lengthOf13) +
      (← rethrow .instructions (Cofinstructions.totalLength v f.instructions.values))
  else raise .badVersion

def packOf10 (v : UInt8) (f : Cofflowmod) (buf : List UInt8) : FlowModAnswer (List UInt8) := do
  let ofpMatch ← liftOxms (f.cofmatch.packOf10 (buf.take 40))
  let fields ← writeRecord layout10 f.fields10 ((buf.drop 40).take 24)
  let n ← rethrow .codec (Cofactions.totalLength v f.actions)
  return ofpMatch ++ fields ++ (← rethrow .codec (Cofactions.pack v f.actions (buf.drop 64) n))

def packOf13 (v : UInt8) (f : Cofflowmod) (buf : List UInt8) : FlowModAnswer (List UInt8) := do
  let fields ← writeRecord layout13 f.fields13 (buf.take 40)
  let m ← liftOxms f.cofmatch.lengthOf13
  let (_, ofpMatch) ← liftOxms (f.cofmatch.packOf13 ((buf.drop 40).take m))
  let n ← rethrow .instructions (Cofinstructions.totalLength v f.instructions.values)
  return fields ++ ofpMatch ++ (← rethrow .instructions (Cofinstructions.pack v f.instructions (buf.drop (40 + m)) n))

def pack (v : UInt8) (f : Cofflowmod) (buf : List UInt8) (buflen : ℕ) : FlowModAnswer (List UInt8) :=
  if buflen = 0 then .ok buf
  else do
    if buflen < (← f.length v) then raise .invalid
    else if v = Openflow10.OFP_VERSION then f.packOf10 v buf
    else f.packOf13 v buf

def unpackOf10 (v : UInt8) (f : Cofflowmod) (buf : List UInt8) : FlowModAnswer Cofflowmod :=
  if buf.length < 64 then raise .invalid
  else do
    let cofmatch ← liftOxms (f.clear.cofmatch.unpackOf10 (buf.take 40))
    let fields ← record layout10 (buf.drop 40)
    let actions ← (if 0 < buf.length - 64 then rethrow .codec (Cofactions.unpack v [] (buf.drop 64) (buf.length - 64))
      else .ok [])
    return { f.clear.setFields10 fields with cofmatch, actions }

/-- All but the instructions, and how long the match that was decoded would be packed. The
length of the match is not compared with what there is: beyond that, the OXMs are read
behind the frame. -/
def unpackOf13 (f : Cofflowmod) (buf : List UInt8) : FlowModAnswer (Cofflowmod × ℕ) :=
  if buf.length < 40 then raise .invalid
  else do
    let fields ← record layout13 buf
    if buf.length - 40 < 8 then raise .invalid
    else
      let matchlen ← numberAt buf 42 2
      let cofmatch ← liftOxms (f.clear.cofmatch.unpackOf13 (← read buf 40 matchlen))
      return ({ f.clear.setFields13 fields with cofmatch }, ← liftOxms cofmatch.lengthOf13)

end Cofflowmod

/-- `unpack` of so many octets, as the caller has it. -/
def Cofinstructions.UnpacksOf (v : UInt8) (buf : List UInt8) (buflen : ℕ)
    (r : InstructionsAnswer (Omap ℕ (Cofinstruction (List Cofaction)))) : Prop :=
  if buflen < Record.size InstructionClass.header then r = .ok .empty
  else ∃ r', Iterate.Ends (body v buf) ⟨0, buflen, .empty⟩ r' ∧ r = r'.map Unpacking.instmap

namespace Cofflowmod

/-- The instructions, behind the match. -/
def UnpacksInstructions (v : UInt8) (buf : List UInt8) (r : FlowModAnswer Cofflowmod) : Cofflowmod × ℕ → Prop
  | (f, n) =>
    let instructionslen := Cofinstructions.minus buf.length (40 + n)
    if instructionslen = 0 then r = .ok f
    else ∃ r', Cofinstructions.UnpacksOf v (buf.drop (40 + n)) instructionslen r' ∧
      r = (rethrow .instructions r').map fun instructions => { f with instructions }

/-- `unpack` of the buffer comes to an end with `r`. -/
def Unpacks (v : UInt8) (f : Cofflowmod) (buf : List UInt8) (r : FlowModAnswer Cofflowmod) : Prop :=
  if buf = [] then r = .ok f
  else if v = Openflow10.OFP_VERSION then r = f.unpackOf10 v buf
  else if v = Openflow12.OFP_VERSION ∨ v = Openflow13.OFP_VERSION then
    match f.unpackOf13 buf with
    | .ok p => UnpacksInstructions v buf r p
    | .error e => r = .error e
  else r = raise .badVersion

/-- The flow-mod as `pack` leaves it. -/
def packed (v : UInt8) (f : Cofflowmod) : Cofflowmod where
  cofmatch := if v = Openflow10.OFP_VERSION then f.cofmatch else f.cofmatch.packed
  actions := if v = Openflow10.OFP_VERSION then f.actions.map Cofaction.packed else f.actions
  instructions := if v = Openflow10.OFP_VERSION then f.instructions else f.instructions.map fun _ i => i.packed
  command := f.command
  tableId := f.tableId
  idleTimeout := f.idleTimeout
  hardTimeout := f.hardTimeout
  cookie := f.cookie
  cookieMask := f.cookieMask
  priority := f.priority
  bufferId := f.bufferId
  outPort := f.outPort
  outGroup := f.outGroup
  flags := f.flags

/-- What it says. -/
def content (f : Cofflowmod) : Cofflowmod :=
  { f with
    actions := f.actions.map Cofaction.content
    instructions := f.instructions.map fun _ i => i.content }

end Cofflowmod

/-! ## The message -/

structure CofmsgFlowMod where
  version : UInt8
  type : UInt8
  len : UInt16
  xid : UInt32
  flowmod : Cofflowmod
deriving DecidableEq

namespace CofmsgFlowMod

/-- The constructor. -/
def new (version : UInt8) (xid : UInt32) (flowmod : Cofflowmod) : CofmsgFlowMod :=
  ⟨version, Openflow13.OFPT_FLOW_MOD, 0, xid, flowmod.setVersion version⟩

def length (m : CofmsgFlowMod) : FlowModAnswer ℕ := do return 8 + (← m.flowmod.length m.version)

/-- `struct ofp_header`. -/
def header : Record.Layout := [.field 1, .field 1, .field 2, .field 4]

def headerFields (m : CofmsgFlowMod) : List ℕ := [m.version.toNat, m.type.toNat, m.len.toNat, m.xid.toNat]

/-- The buffer is zeroed first; it is not compared with the length itself, but with its low 16 bits. -/
def pack (m : CofmsgFlowMod) (buf : List UInt8) : FlowModAnswer (List UInt8) := do
  let n ← m.length
  let m := { m with len := .ofNat n }
  if buf.length = 0 then return buf
  else if buf.length < 8 then raise .invalid
  else
    let hdr ← writeRecord header m.headerFields (.replicate 8 0)
    if buf.length < m.len.toNat then raise .invalid
    else
      let n ← m.flowmod.length m.version
      return hdr ++ (← m.flowmod.pack m.version (.replicate (buf.length - 8) 0) n)

/-- `cofmsg::unpack`. -/
def unpackHeader (m : CofmsgFlowMod) (buf : List UInt8) : FlowModAnswer CofmsgFlowMod :=
  if buf.length < 8 then raise .badRequestBadLen
  else
    let len := field buf 2 2
    if len < 8 then raise .badRequestBadLen
    else if buf.length < len then raise .badRequestBadLen
    else .ok { m with version := .ofNat (field buf 0 1), type := .ofNat (field buf 1 1),
                      len := .ofNat len, xid := .ofNat (field buf 4 4) }

/-- What is done before the flow-mod is unpacked. -/
def unpackFront (m : CofmsgFlowMod) (buf : List UInt8) : FlowModAnswer CofmsgFlowMod := do
  let m ← m.unpackHeader buf
  let m := { m with flowmod := (m.flowmod.setVersion m.version).clear }
  if buf.length < (← m.length) then raise .badRequestBadLen
  else if m.type ≠ Openflow13.OFPT_FLOW_MOD then raise .badRequestBadType
  else return m

/-- And after it. -/
def checkLength (m : CofmsgFlowMod) : FlowModAnswer CofmsgFlowMod := do
  if m.len.toNat < (← m.length) then raise .badRequestBadLen
  else return m

/-- `unpack` of the buffer comes to an end with `r`. -/
def Unpacks (m : CofmsgFlowMod) (buf : List UInt8) (r : FlowModAnswer CofmsgFlowMod) : Prop :=
  if buf = [] then r = .ok { m with flowmod := (m.flowmod.setVersion m.version).clear }
  else
    match m.unpackFront buf with
    | .ok m => ∃ r', m.flowmod.Unpacks m.version (buf.drop 8) r' ∧
        r = r' >>= fun f => checkLength { m with flowmod := f }
    | .error e => r = .error e

/-- Packed into as many octets as it takes, whatever they were, the message is read as it was
by a new one. -/
def ComesBack (m : CofmsgFlowMod) : Prop :=
  ∃ n, m.length = .ok n ∧ ∀ buf : List UInt8, buf.length = n → ∃ out m',
    m.pack buf = .ok out ∧
      (new Openflow.OFP_VERSION_UNKNOWN 0 (.new Openflow.OFP_VERSION_UNKNOWN)).Unpacks out (.ok m') ∧
      m'.version = m.version ∧ m'.type = m.type ∧ m'.xid = m.xid ∧
      m'.flowmod.content = (m.flowmod.packed m.version).content

end CofmsgFlowMod

namespace Cofflowmod

/-- As the API makes it: the OXMs are added and set, an instruction is under its type, and an
experimenter's OXM has no mask but by its flag. -/
structure Made (f : Cofflowmod) : Prop where
  built : f.cofmatch.oxms.Built
  keyed : Cofinstructions.Keyed f.instructions
  tidy : ∀ i ∈ f.instructions.values, i.Tidy
  actions : ∀ a ∈ f.actions, a.Tidy

end Cofflowmod

/-! ## A match in a message -/

namespace Coxmatches

theorem lengths_packed {es : List (ℕ × Coxmatch)} (hes : ∀ e ∈ es, MaskSet e.2) {n : ℕ} (hn : lengths es = .ok n) :
    lengths (es.map fun e => (e.1, e.2.packed)) = .ok n := by
  induction es generalizing n with
  | nil => exact hn
  | cons d es ih =>
    obtain ⟨k, hk, hn⟩ := Except.bind_eq_ok.mp hn
    obtain ⟨l, hl, hn⟩ := Except.bind_eq_ok.mp hn
    cases hn
    have hpacked := (image_packed (hes d List.mem_cons_self) hk).1
    rw [List.map_cons, lengths, hpacked, ih (fun e he => hes e (List.mem_cons_of_mem d he)) hl]
    rfl

end Coxmatches

namespace Cofmatch

variable {m : Cofmatch} {n l : ℕ}

/-- What `pack_of13` writes, but for the padding. -/
def image (m : Cofmatch) (l : ℕ) : List UInt8 :=
  htobe16 m.type.toNat ++ htobe16 (4 + l) ++ m.oxms.entries.flatMap fun e => e.2.packed.image

theorem packOf13_blank (hbuilt : m.oxms.Built) (hn : m.lengthOf13 = .ok n) : ∃ l, m.oxms.length = .ok l ∧
    (m.image l).length = 4 + l ∧ 4 + l ≤ n ∧ m.packed.lengthOf13 = .ok n ∧
      m.packOf13 (.replicate n 0) = .ok (m.packed, m.image l ++ .replicate (n - (4 + l)) 0) := by
  obtain ⟨l, hl, hle⟩ := length_of_lengthOf13 hn
  have hmasks : ∀ e ∈ m.oxms.entries, Coxmatches.MaskSet e.2 := fun e he => (hbuilt.entry e he).maskSet
  have himage := (@Coxmatches.packs_eq _ hmasks _ hl (.replicate l 0) (by simp)).2
  refine ⟨l, hl, ?_, hle, ?_, ?_⟩
  · rw [image, List.length_append, himage]
    rfl
  · have hpacked : m.packed.oxms.length = .ok l := Coxmatches.lengths_packed hmasks hl
    rw [lengthOf13, hl] at hn
    rw [lengthOf13, hpacked]
    exact hn
  · rw [packOf13_zeros hmasks hn hl hle, image, List.append_assoc (htobe16 m.type.toNat ++ htobe16 (4 + l))]
    rfl

end Cofmatch

namespace OfpMatch

/-- What is packed of the structure. -/
def image (w : OfpMatch) : List UInt8 := Record.write layout w.fields (.replicate 40 0)

theorem length_image (w : OfpMatch) : w.image.length = 40 :=
  (Record.length_write w.fits_fields (by decide)).trans List.length_replicate

end OfpMatch


/-! ## The octets of a flow-mod -/

namespace Cofflowmod

variable {v : UInt8} {f g : Cofflowmod} {n k : ℕ}

theorem fits10 (f : Cofflowmod) : Record.Fits layout10 f.fields10 := by
  have hport : f.outPort.toNat % 65536 < 65536 := Nat.mod_lt _ (by decide)
  have hcommand := f.command.toNat_lt
  exact ⟨f.cookie.toNat_lt, by omega, f.idleTimeout.toNat_lt, f.hardTimeout.toNat_lt, f.priority.toNat_lt,
    f.bufferId.toNat_lt, hport, f.flags.toNat_lt, rfl⟩

theorem fits13 (f : Cofflowmod) : Record.Fits layout13 f.fields13 :=
  ⟨f.cookie.toNat_lt, f.cookieMask.toNat_lt, f.tableId.toNat_lt, f.command.toNat_lt, f.idleTimeout.toNat_lt,
    f.hardTimeout.toNat_lt, f.priority.toNat_lt, f.bufferId.toNat_lt, f.outPort.toNat_lt, f.outGroup.toNat_lt,
    f.flags.toNat_lt, rfl⟩

/-- What stands in front of the match. -/
def front13 (f : Cofflowmod) : List UInt8 := Record.write layout13 f.fields13 (.replicate 40 0)

theorem length_front13 (f : Cofflowmod) : f.front13.length = 40 :=
  (Record.length_write f.fits13 (by decide)).trans List.length_replicate

/-- With the match and its padding. -/
def head13 (f : Cofflowmod) (n l : ℕ) : List UInt8 :=
  f.front13 ++ (f.cofmatch.image l ++ .replicate (n - (4 + l)) 0)

theorem length_head13 {l : ℕ} (hl : (f.cofmatch.image l).length = 4 + l) (hle : 4 + l ≤ n) :
    (f.head13 n l).length = 40 + n := by
  simp only [head13, List.length_append, List.length_replicate, f.length_front13, hl]
  omega

/-- The fixed part, the match, its padding, and the instructions. -/
theorem packOf13_eq (hbuilt : f.cofmatch.oxms.Built) (hn : f.cofmatch.lengthOf13 = .ok n)
    (hk : Cofinstructions.totalLength v f.instructions.values = .ok k) : ∃ l out,
      f.cofmatch.oxms.length = .ok l ∧ (f.cofmatch.image l).length = 4 + l ∧ 4 + l ≤ n ∧
        Cofinstructions.pack v f.instructions (.replicate k 0) k = .ok out ∧ out.length = k ∧
          f.packOf13 v (.replicate (40 + n + k) 0) =
            .ok (f.head13 n l ++ out) := by
  obtain ⟨l, hl, himage, hle, _, hpack⟩ := Cofmatch.packOf13_blank hbuilt hn
  obtain ⟨out, hout, hinsts⟩ := Cofinstructions.packFrom_eq hk (List.length_replicate (n := k) (a := (0 : UInt8)))
  rw [← Cofinstructions.pack_total hk] at hinsts
  refine ⟨l, out, hl, himage, hle, hinsts, hout, ?_⟩
  have hfront : (writeRecord layout13 f.fields13 (.replicate 40 0) : FlowModAnswer (List UInt8)) = .ok f.front13 :=
    if_pos (by decide)
  rw [packOf13, List.take_replicate, Nat.min_eq_left (by omega), hfront]
  show (liftOxms f.cofmatch.lengthOf13 >>= fun m => _) = _
  rw [hn]
  show (liftOxms (f.cofmatch.packOf13 (((List.replicate (40 + n + k) (0 : UInt8)).drop 40).take n)) >>= fun p => _) = _
  rw [List.drop_replicate, List.take_replicate, Nat.min_eq_left (by omega), hpack]
  show (rethrow FlowModException.instructions (Cofinstructions.totalLength v f.instructions.values) >>= fun m => _) = _
  rw [hk]
  show (rethrow FlowModException.instructions (Cofinstructions.pack v f.instructions
    ((List.replicate (40 + n + k) (0 : UInt8)).drop (40 + n)) k) >>= fun insts => _) = _
  rw [List.drop_replicate, Nat.add_sub_cancel_left, hinsts]
  rfl

end Cofflowmod

/-! ### The instructions -/

namespace Cofinstructions

variable {v : UInt8} {instmap : Omap ℕ (Cofinstruction (List Cofaction))} {k : ℕ} {out : List UInt8}

theorem Unpacks.unique {r r' : InstructionsAnswer (Omap ℕ (Cofinstruction (List Cofaction)))} (h : Unpacks v out r)
    (h' : Unpacks v out r') : r = r' := by
  rw [Unpacks] at h h'
  split at h
  · next hshort =>
    rw [if_pos hshort] at h'
    rw [h, h']
  · next hshort =>
    rw [if_neg hshort] at h'
    obtain ⟨s, hs, rfl⟩ := h
    obtain ⟨s', hs', rfl⟩ := h'
    rw [hs.unique hs']

theorem totalLength_reread {insts : List (Cofinstruction (List Cofaction))} (hinsts : ∀ i ∈ insts, i.Survives v)
    (hk : totalLength v insts = .ok k) : totalLength v (insts.map Cofinstruction.reread) = .ok k := by
  induction insts generalizing k with
  | nil => exact hk
  | cons i insts ih =>
    obtain ⟨m, j, hm, hj, rfl⟩ := totalLength_cons.mp hk
    obtain ⟨m', hm', _, hreread, _⟩ := hinsts i List.mem_cons_self
    obtain rfl : m = m' := Except.ok.inj (hm.symm.trans hm')
    exact totalLength_cons.mpr ⟨m, j, hreread, ih (fun a ha => hinsts a (List.mem_cons_of_mem i ha)) hj, rfl⟩

end Cofinstructions

namespace Cofflowmod

variable {v : UInt8} {f f' g : Cofflowmod} {n k : ℕ}

/-- Unpacked by a new object, with what it says, and the message is not longer than `len`. -/
def ComesBack (v : UInt8) (f : Cofflowmod) (s len : ℕ) : Prop :=
  ∃ body f', f.pack v (.replicate s 0) s = .ok body ∧ (new v).Unpacks v body (.ok f') ∧
    (∃ t, f'.length v = .ok t ∧ 8 + t ≤ len) ∧ f'.content = (f.packed v).content

theorem length13 (hv : v = Openflow12.OFP_VERSION ∨ v = Openflow13.OFP_VERSION) {s : ℕ} : f.length v = .ok s ↔
    ∃ n k, f.cofmatch.lengthOf13 = .ok n ∧ Cofinstructions.totalLength v f.instructions.values = .ok k ∧
      s = 40 + n + k := by
  have hne : v ≠ Openflow10.OFP_VERSION := by rcases hv with rfl | rfl <;> decide
  rw [length, if_neg hne, if_pos hv]
  constructor
  · intro h
    obtain ⟨n, hn, h⟩ := Except.bind_eq_ok.mp h
    obtain ⟨k, hk, h⟩ := Except.bind_eq_ok.mp h
    exact ⟨n, k, liftOxms_eq_ok.mp hn, rethrow_eq_ok.mp hk, (Except.ok.inj h).symm⟩
  · rintro ⟨n, k, hn, hk, rfl⟩
    rw [hn, hk]
    rfl

end Cofflowmod

namespace Cofactions

variable {v : UInt8} {xs : List Cofaction} {k : ℕ} {out : List UInt8}

end Cofactions

namespace Cofflowmod

variable {v : UInt8} {f f' g : Cofflowmod} {n k : ℕ}

theorem length10 {s : ℕ} : f.length Openflow10.OFP_VERSION = .ok s ↔
    ∃ k, Cofactions.totalLength Openflow10.OFP_VERSION f.actions = .ok k ∧ s = 64 + k := by
  rw [length, if_pos rfl]
  constructor
  · intro h
    obtain ⟨k, hk, h⟩ := Except.bind_eq_ok.mp h
    exact ⟨k, rethrow_eq_ok.mp hk, (Except.ok.inj h).symm⟩
  · rintro ⟨k, hk, rfl⟩
    rw [hk]
    rfl

/-- What stands between the match and the actions. -/
def front10 (f : Cofflowmod) : List UInt8 := Record.write layout10 f.fields10 (.replicate 24 0)

theorem length_front10 (f : Cofflowmod) : f.front10.length = 24 :=
  (Record.length_write f.fits10 (by decide)).trans List.length_replicate

/-- The structure the match is packed to, the other fields, and the actions. -/
theorem packOf10_eq {w : OfpMatch} (hw : f.cofmatch.oxms.ofpMatch = .ok w)
    (hk : Cofactions.totalLength v f.actions = .ok k) : ∃ out,
      Cofactions.pack v f.actions (.replicate k 0) k = .ok out ∧ out.length = k ∧
        f.packOf10 v (.replicate (64 + k) 0) =
          .ok (w.image ++ f.front10 ++ out) := by
  have hzeros : (List.replicate k (0 : UInt8)).length = k := List.length_replicate
  obtain ⟨out, hout, hactions⟩ := Cofactions.packFrom_eq hk hzeros
  have hpack : Cofactions.pack v f.actions (.replicate k 0) k = .ok out := by
    rw [Cofactions.pack_total hk]
    simpa using hactions []
  have hmatch : f.cofmatch.packOf10 (.replicate 40 0) = .ok (w.image) := by
    rw [Cofmatch.packOf10, if_neg (by decide), hw]
    rfl
  refine ⟨out, hpack, hout, ?_⟩
  rw [packOf10, List.take_replicate, Nat.min_eq_left (by omega), hmatch]
  show (writeRecord layout10 f.fields10 (((List.replicate (64 + k) (0 : UInt8)).drop 40).take 24) >>= fun b => _) = _
  rw [List.drop_replicate, List.take_replicate, Nat.min_eq_left (by omega), writeRecord, if_pos (by decide)]
  show (rethrow FlowModException.codec (Cofactions.totalLength v f.actions) >>= fun m => _) = _
  rw [hk]
  show (rethrow FlowModException.codec (Cofactions.pack v f.actions
    ((List.replicate (64 + k) (0 : UInt8)).drop 64) k) >>= fun insts => _) = _
  rw [List.drop_replicate, Nat.add_sub_cancel_left, hpack]
  rfl

/-- Packing fills as many octets as it says. -/
theorem length_pack (hf : f.Made) {s : ℕ} (hs : f.length v = .ok s) {body : List UInt8}
    (h : f.pack v (.replicate s 0) s = .ok body) : body.length = s := by
  by_cases hv10 : v = Openflow10.OFP_VERSION
  · subst hv10
    obtain ⟨k, hk, rfl⟩ := length10.mp hs
    rw [pack, if_neg (by omega), hs] at h
    change (if 64 + k < 64 + k then _ else _) = _ at h
    rw [if_neg (lt_irrefl _), if_pos rfl] at h
    cases hw : f.cofmatch.oxms.ofpMatch with
    | error e =>
      obtain ⟨ofpMatch, hmatch, _⟩ := Except.bind_eq_ok.mp h
      have hmatch := liftOxms_eq_ok.mp hmatch
      rw [List.take_replicate, Nat.min_eq_left (by omega), Cofmatch.packOf10, if_neg (by decide), hw] at hmatch
      cases hmatch
    | ok w =>
      obtain ⟨out, _, hout, hpack⟩ := packOf10_eq hw hk
      obtain rfl := Except.ok.inj (h.symm.trans hpack)
      have hmatch := w.length_image
      rw [List.length_append, List.length_append, hmatch, f.length_front10, hout]
  · by_cases hv : v = Openflow12.OFP_VERSION ∨ v = Openflow13.OFP_VERSION
    · obtain ⟨n, k, hn, hk, rfl⟩ := (length13 hv).mp hs
      obtain ⟨l, out, _, himage, hle, _, hout, hpack⟩ := packOf13_eq hf.built hn hk
      rw [pack, if_neg (by omega), hs] at h
      change (if 40 + n + k < 40 + n + k then _ else _) = _ at h
      rw [if_neg (lt_irrefl _), if_neg hv10, hpack] at h
      obtain rfl := Except.ok.inj h
      rw [List.length_append, length_head13 himage hle, hout]
    · rw [length, if_neg hv10, if_neg hv] at hs
      cases hs

end Cofflowmod

/-! ### Messages that come back -/

namespace CofmsgFlowMod

variable {v : UInt8} {xid : UInt32} {f : Cofflowmod} {s : ℕ}

/-- The header of a message with so many octets behind it. -/
def headerOf (v : UInt8) (xid : UInt32) (s : ℕ) : List ℕ :=
  [v.toNat, Openflow13.OFPT_FLOW_MOD.toNat, (8 + s) % 65536, xid.toNat]

def front (v : UInt8) (xid : UInt32) (s : ℕ) : List UInt8 := Record.write header (headerOf v xid s) (.replicate 8 0)

theorem length_eq (hs : (f.setVersion v).length v = .ok s) : (new v xid f).length = .ok (8 + s) := by
  rw [length]
  show ((f.setVersion v).length v >>= fun n => _ : FlowModAnswer ℕ) = _
  rw [hs]
  rfl

/-- The header, and the flow-mod packed into zeros. -/
theorem pack_eq (hs : (f.setVersion v).length v = .ok s) {buf : List UInt8} (hbuf : buf.length = 8 + s) :
    (new v xid f).pack buf = do return front v xid s ++ (← (f.setVersion v).pack v (.replicate s 0) s) := by
  have hlength := @length_eq v xid f s hs
  have hmod : (UInt16.ofNat (8 + s)).toNat = (8 + s) % 65536 := UInt16.toNat_ofNat'
  have hle := Nat.mod_le (8 + s) 65536
  rw [pack, hlength]
  show (if buf.length = 0 then _ else if buf.length < 8 then _ else _) = _
  rw [if_neg (by omega), if_neg (by omega)]
  show (if buf.length < (UInt16.ofNat (8 + s)).toNat then _ else
    ((f.setVersion v).length v >>= fun n => _) : FlowModAnswer (List UInt8)) = _
  rw [hmod, if_neg (by omega), hs, hbuf, Nat.add_sub_cancel_left, front, headerOf, ← hmod]
  rfl

end CofmsgFlowMod
end RoflCommon
