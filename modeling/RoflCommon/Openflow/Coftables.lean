/-
The features of tables: `coftables`, `coftable_features`, and properties that are
a header, ids, and zeros up to a multiple of eight octets.

The ids of next tables, actions and OXMs are read up to the length in the header.
Those of instructions are read up to the end of the zeros, and it is a length of
zero that ends them (`instructionIds_octets`). Tables packed into a buffer of
zeros are read back as they were (`Coftables.roundTrips`).
-/
import RoflCommon.Openflow
import RoflCommon.Openflow.Coxmatch
import RoflCommon.Lib.Omap
import RoflCommon.Lib.Record
import RoflCommon.Lib.Tlv
import Mathlib.Algebra.Order.BigOperators.Group.List
import Mathlib.Data.List.TakeWhile

namespace RoflCommon

open Octets

/-! ## Properties -/

/-- What is thrown, a read behind the buffer, and a loop without end. -/
inductive TfpException
  | inval
  | badLen
  | badType
  | badVersion
  | propInval
  | overrun
  | diverges
deriving DecidableEq, Repr

/-- `struct ofp_instruction` and `struct ofp_action`: the ids of instructions and actions. -/
structure TypeLen where
  type : UInt16
  len : UInt16
deriving DecidableEq

namespace TypeLen

def octets (i : TypeLen) : List UInt8 := Octets.octets 2 i.type.toNat ++ Octets.octets 2 i.len.toNat

def ofBuf (buf : List UInt8) : TypeLen := ⟨.ofNat (field buf 0 2), .ofNat (field buf 2 2)⟩

end TypeLen

/-- The classes derived from `coftable_feature_prop`. -/
inductive TfpKind
  | instructions
  | nextTables
  | actions
  | oxm
deriving DecidableEq, Repr

/-- The class `coftable_feature_props` makes for an `OFPTFPT_*` type. -/
def tfpKind : ℕ → Option TfpKind
  | 0 | 1 => some .instructions
  | 2 | 3 => some .nextTables
  | 4 | 5 | 6 | 7 => some .actions
  | 8 | 10 | 12 | 13 | 14 | 15 => some .oxm
  | _ => none

/-- `coftable_feature_prop`. -/
inductive Tfp
  | instructions (instructionsIds : List TypeLen)
  | nextTables (tableIds : List UInt8)
  | actions (actionIds : List TypeLen)
  | oxm (oxmIds : List UInt32) (oxmIdsExp : List UInt64)
deriving DecidableEq

namespace Tfp

def kind : Tfp → TfpKind
  | instructions _ => .instructions
  | nextTables _ => .nextTables
  | actions _ => .actions
  | oxm _ _ => .oxm

/-- The length field, without the padding. -/
def lengthField : Tfp → ℕ
  | instructions ids => 4 + ids.length * 4
  | nextTables ids => 4 + ids.length * 1
  | actions ids => 4 + ids.length * 4
  | oxm ids idsExp => 4 + ids.length * 4 + idsExp.length * 8

def length (p : Tfp) : ℕ := padded p.lengthField

/-- What is filled in behind the header. -/
def ids : Tfp → List UInt8
  | instructions ids => ids.flatMap TypeLen.octets
  | nextTables ids => ids
  | actions ids => ids.flatMap TypeLen.octets
  | oxm ids idsExp => (ids.flatMap fun i => octets 4 i.toNat) ++ idsExp.flatMap fun i => octets 8 i.toNat

/-- The padding is not written. -/
def pack (type : ℕ) (p : Tfp) (buf : List UInt8) : Except TfpException (List UInt8) :=
  if buf = [] then .ok buf
  else if buf.length < p.length then .error .propInval
  else .ok (octets 2 type ++ octets 2 p.lengthField ++ p.ids ++ buf.drop p.lengthField)

/-- The loop over what is left behind the header; `buflen` counts the header still. -/
def instructionIds : ℕ → List UInt8 → Except TfpException (List TypeLen)
  | 0, _ => .ok []
  | n + 1, buf =>
    if buf = [] then .ok []
    else if buf.length < 4 then .error .overrun
    else
      let i := TypeLen.ofBuf buf
      if i.len.toNat < 4 then .ok []
      -- `buflen` is unsigned, and the loop goes on for as good as ever
      else if buf.length + 4 < i.len.toNat then .error .overrun
      else do return i :: (← instructionIds n (buf.drop i.len.toNat))

def actionIds : ℕ → List UInt8 → List TypeLen
  | 0, _ => []
  | n + 1, buf => .ofBuf buf :: actionIds n (buf.drop 4)

/-- The loop over what the length field leaves. An id of a class that is not known is
looked at again and again. -/
def oxmIds : ℕ → List UInt8 → Except TfpException (List UInt32 × List UInt64)
  | 0, _ => .ok ([], [])
  | n + 1, buf =>
    if buf.length < 4 then .ok ([], [])
    else
      let oxmClass := field buf 0 2
      if oxmClass = 0 then .ok ([], [])
      else if oxmClass = Openflow.OFPXMC_EXPERIMENTER.toNat then
        if buf.length < 8 then .ok ([], [])
        else do
          let (ids, idsExp) ← oxmIds n (buf.drop 8)
          return (ids, .ofNat (field buf 0 8) :: idsExp)
      else if oxmClass = Openflow.OFPXMC_OPENFLOW_BASIC.toNat then do
        let (ids, idsExp) ← oxmIds n (buf.drop 4)
        return (.ofNat (field buf 0 4) :: ids, idsExp)
      else .error .diverges

def unpack (kind : TfpKind) (buf : List UInt8) : Except TfpException Tfp :=
  if buf.length < 4 then .error .propInval
  else
    let length := field buf 2 2
    if length < 4 then .error .propInval
    else if buf.length < padded length then .error .propInval
    else
      match kind with
      | .instructions => do return instructions (← instructionIds buf.length (buf.drop 4))
      | .nextTables => .ok (nextTables ((buf.drop 4).take (length - 4)))
      | .actions => .ok (actions (actionIds ((length - 4) / 4) (buf.drop 4)))
      | .oxm => do
        let (ids, idsExp) ← oxmIds buf.length ((buf.drop 4).take (length - 4))
        return oxm ids idsExp

end Tfp

/-- `coftable_feature_props`: no more than one property of a type. -/
abbrev TfpMap := Omap ℕ Tfp

namespace TfpMap

def length (x : TfpMap) : ℕ := (x.entries.map fun e => e.2.length).sum

def pack (x : TfpMap) (buf : List UInt8) : Except TfpException (List UInt8) :=
  if buf = [] then .ok buf
  else if buf.length < x.length then .error .inval
  else Tlv.packAll (fun e => e.2.length) (fun e => e.2.pack e.1) x.entries buf

def read (x : TfpMap) (buf : List UInt8) : Except TfpException TfpMap :=
  let type := field buf 0 2
  let length := field buf 2 2
  if length < 4 then .error .badLen
  else if buf.length < padded length then .error .badLen
  else
    match tfpKind type with
    | none => .error .badType
    | some kind => do return x.insert type (← Tfp.unpack kind (buf.take (padded length)))

/-- The loop of `coftable_feature_props::unpack`. -/
def walker : Tlv.Walker UInt8 TfpMap TfpException where
  header := 4
  header_pos := by decide
  size buf := max 4 (padded (field buf 2 2))
  header_le _ := le_max_left _ _
  read := read

def unpack (x : TfpMap) (buf : List UInt8) : Except TfpException TfpMap :=
  if buf = [] then .ok x else walker.walk .empty buf

end TfpMap

/-! ## Tables -/

/-- `coftable_features`. -/
structure CoftableFeatures where
  ofpVersion : UInt8
  tableId : UInt8
  name : List UInt8
  metadataMatch : UInt64
  metadataWrite : UInt64
  config : UInt32
  maxEntries : UInt32
  properties : TfpMap
deriving DecidableEq

def Openflow.OFP_MAX_TABLE_NAME_LEN : ℕ := 32

/-- What `strncpy` writes: the characters before the first NUL, and zeros. -/
def strncpy (s : List UInt8) (n : ℕ) : List UInt8 :=
  let s := (s.takeWhile (· ≠ 0)).take n
  s ++ .replicate (n - s.length) 0

namespace CoftableFeatures

def new (ofpVersion : UInt8) : CoftableFeatures := ⟨ofpVersion, 0, [], 0, 0, 0, 0, .empty⟩

/-- `struct ofp_table_features`. -/
def layout : Record.Layout :=
  [.field 2, .field 1, .pad 5, .field 32, .field 8, .field 8, .field 4, .field 4]

/-- `length()`, in version 1.3. -/
def size (t : CoftableFeatures) : ℕ := Record.size layout + t.properties.length

/-- The last character of the name stays what it was in the buffer, unless the name is
too long. -/
def nameField (name : List UInt8) (last : UInt8) : List UInt8 :=
  strncpy name (Openflow.OFP_MAX_TABLE_NAME_LEN - 1) ++
    [if name.length ≥ Openflow.OFP_MAX_TABLE_NAME_LEN then 0 else last]

def fields (t : CoftableFeatures) (last : UInt8) : List ℕ :=
  [t.size % 65536, t.tableId.toNat, number (nameField t.name last), t.metadataMatch.toNat, t.metadataWrite.toNat,
   t.config.toNat, t.maxEntries.toNat]

def pack (t : CoftableFeatures) (buf : List UInt8) : Except TfpException (List UInt8) :=
  if buf = [] then .ok buf
  else if t.ofpVersion ≠ Openflow13.OFP_VERSION then .error .badVersion
  else if buf.length < t.size then .error .inval
  else do
    let hdr := Record.write layout (t.fields (buf.getD 39 0)) (buf.take (Record.size layout))
    return hdr ++ (← t.properties.pack (buf.drop (Record.size layout)))

/-- The structure read into an object. -/
def ofFields (t : CoftableFeatures) : List ℕ → CoftableFeatures
  | [_, tableId, name, metadataMatch, metadataWrite, config, maxEntries] =>
    { t with tableId := .ofNat tableId, name := octets Openflow.OFP_MAX_TABLE_NAME_LEN name,
             metadataMatch := .ofNat metadataMatch, metadataWrite := .ofNat metadataWrite, config := .ofNat config,
             maxEntries := .ofNat maxEntries }
  | _ => t

/-- The octets behind the structure that are taken for properties. -/
def proplen (buf : List UInt8) : ℕ :=
  let rlen := buf.length - Record.size layout
  -- a length below 64 makes `slen` a very large number
  if field buf 0 2 < Record.size layout then rlen else min (field buf 0 2 - Record.size layout) rlen

def unpack (t : CoftableFeatures) (buf : List UInt8) : Except TfpException CoftableFeatures :=
  if t.ofpVersion ≠ Openflow13.OFP_VERSION then .error .badVersion
  else if buf.length < Record.size layout then .error .inval
  else do
    let t := t.ofFields (Record.read layout buf)
    return { t with properties := ← t.properties.unpack ((buf.drop (Record.size layout)).take (proplen buf)) }

end CoftableFeatures

/-- `coftables`. -/
structure Coftables where
  ofpVersion : UInt8
  tables : Omap ℕ CoftableFeatures
deriving DecidableEq

namespace Coftables

def new (ofpVersion : UInt8) : Coftables := ⟨ofpVersion, .empty⟩

def size (x : Coftables) : ℕ := (x.tables.entries.map fun e => e.2.size).sum

/-- `length()` throws for a table of another version. -/
def length (x : Coftables) : Except TfpException ℕ :=
  if ∀ e ∈ x.tables.entries, e.2.ofpVersion = Openflow13.OFP_VERSION then .ok x.size else .error .badVersion

def pack (x : Coftables) (buf : List UInt8) : Except TfpException (List UInt8) :=
  if buf = [] then .ok buf
  else do
    let length ← x.length
    if buf.length < length then throw .inval
    else Tlv.packAll (fun e => e.2.size) (fun e => e.2.pack) x.tables.entries buf

def read (ofpVersion : UInt8) (x : Omap ℕ CoftableFeatures) (buf : List UInt8) :
    Except TfpException (Omap ℕ CoftableFeatures) :=
  if buf.length < 2 then .error .overrun
  else
    let length := field buf 0 2
    if buf.length < length ∨ length < Record.size CoftableFeatures.layout then .error .badLen
    else do return x.insert (field buf 2 1) (← (CoftableFeatures.new ofpVersion).unpack (buf.take length))

/-- The loop of `coftables::unpack`. -/
def walker (ofpVersion : UInt8) : Tlv.Walker UInt8 (Omap ℕ CoftableFeatures) TfpException where
  header := 1
  header_pos := by decide
  size buf := max 1 (field buf 0 2)
  header_le _ := le_max_left _ _
  read := read ofpVersion

def unpack (x : Coftables) (buf : List UInt8) : Except TfpException Coftables :=
  if buf = [] then .ok x else do return { x with tables := ← (walker x.ofpVersion).walk .empty buf }

end Coftables

/-! ## Properties in zeros -/

namespace TypeLen

@[simp] theorem length_octets (i : TypeLen) : i.octets.length = 4 := by simp [octets]

theorem ofBuf_octets (i : TypeLen) (rest : List UInt8) : ofBuf (i.octets ++ rest) = i := by
  have htype : field (i.octets ++ rest) 0 2 = i.type.toNat := by
    rw [octets, List.append_assoc, field_octets_of_lt i.type.toNat_lt]
  have hlen : field (i.octets ++ rest) 2 2 = i.len.toNat := by
    rw [octets, List.append_assoc, field_append_right (Octets.length_octets 2 _).le, Octets.length_octets, Nat.sub_self,
      field_octets_of_lt i.len.toNat_lt]
  rw [ofBuf, htype, hlen, UInt16.ofNat_toNat, UInt16.ofNat_toNat]

theorem length_flatMap (ids : List TypeLen) : (ids.flatMap octets).length = ids.length * 4 := by
  induction ids with
  | nil => rfl
  | cons i ids ih =>
    rw [List.flatMap_cons, List.length_append, ih, length_octets, List.length_cons]
    omega

end TypeLen

theorem length_flatMap_octets {α : Type*} (n : ℕ) (f : α → ℕ) (ids : List α) :
    (ids.flatMap fun i => octets n (f i)).length = ids.length * n := by
  induction ids with
  | nil => simp
  | cons i ids ih =>
    rw [List.flatMap_cons, List.length_append, ih, length_octets, List.length_cons]
    ring

namespace Tfp

/-- Ids that can be read back: an instruction is as long as its id, and an OXM has the
class its id is put under. -/
def Valid : Tfp → Prop
  | instructions ids => ∀ i ∈ ids, i.len = 4
  | nextTables _ => True
  | actions _ => True
  | oxm ids idsExp =>
    (∀ i ∈ ids, i.toNat / 65536 = Openflow.OFPXMC_OPENFLOW_BASIC.toNat) ∧
      ∀ i ∈ idsExp, i.toNat / 281474976710656 = Openflow.OFPXMC_EXPERIMENTER.toNat

instance : (p : Tfp) → Decidable p.Valid
  | instructions ids => List.decidableBAll (fun i : TypeLen => i.len = 4) ids
  | nextTables _ => .isTrue trivial
  | actions _ => .isTrue trivial
  | oxm ids idsExp =>
    @instDecidableAnd _ _
      (List.decidableBAll (fun i : UInt32 => i.toNat / 65536 = Openflow.OFPXMC_OPENFLOW_BASIC.toNat) ids)
      (List.decidableBAll (fun i : UInt64 => i.toNat / 281474976710656 = Openflow.OFPXMC_EXPERIMENTER.toNat) idsExp)

/-- The property in a buffer of zeros. -/
def image (type : ℕ) (p : Tfp) : List UInt8 :=
  octets 2 type ++ octets 2 p.lengthField ++ p.ids ++ .replicate (p.length - p.lengthField) 0

theorem length_ids (p : Tfp) : 4 + p.ids.length = p.lengthField := by
  cases p with
  | instructions l => rw [ids, TypeLen.length_flatMap, lengthField]
  | nextTables l => rw [ids, lengthField, Nat.mul_one]
  | actions l => rw [ids, TypeLen.length_flatMap, lengthField]
  | oxm l lExp => rw [ids, List.length_append, length_flatMap_octets, length_flatMap_octets, lengthField, Nat.add_assoc]

theorem lengthField_le (p : Tfp) : p.lengthField ≤ p.length := le_padded _

theorem four_le_lengthField (p : Tfp) : 4 ≤ p.lengthField := by
  rw [← p.length_ids]
  omega

theorem length_image (type : ℕ) (p : Tfp) : (p.image type).length = p.length := by
  have hids := p.length_ids
  have hle := p.lengthField_le
  simp only [image, List.length_append, length_octets, List.length_replicate]
  omega

theorem pack_replicate (type : ℕ) (p : Tfp) : p.pack type (.replicate p.length 0) = .ok (p.image type) := by
  have hle := p.lengthField_le
  have hfour := p.four_le_lengthField
  have hne : List.replicate p.length (0 : UInt8) ≠ [] := List.ne_nil_of_length_pos (by
    rw [List.length_replicate]
    omega)
  rw [pack, if_neg hne, if_neg (by simp), List.drop_replicate, image]

theorem image_append (type : ℕ) (p : Tfp) (rest : List UInt8) :
    p.image type ++ rest =
      octets 2 type ++ (octets 2 p.lengthField ++ (p.ids ++ (.replicate (p.length - p.lengthField) 0 ++ rest))) := by
  simp only [image, List.append_assoc]

theorem field_type {type : ℕ} (htype : type < 65536) (p : Tfp) (rest : List UInt8) :
    field (p.image type ++ rest) 0 2 = type := by
  rw [image_append, field_octets_of_lt htype]

theorem field_length (type : ℕ) {p : Tfp} (h : p.lengthField < 65536) (rest : List UInt8) :
    field (p.image type ++ rest) 2 2 = p.lengthField := by
  rw [image_append, field_append_right (length_octets 2 _).le, length_octets, Nat.sub_self, field_octets_of_lt h]

theorem drop_image (type : ℕ) (p : Tfp) :
    (p.image type).drop 4 = p.ids ++ .replicate (p.length - p.lengthField) 0 := by
  rw [image, List.append_assoc]
  exact List.drop_left' (by simp)

/-! ### The ids -/

/-- The ids of instructions with zeros behind them: there is no length in zeros. -/
theorem instructionIds_octets {ids : List TypeLen} (h : ∀ i ∈ ids, i.len = 4) {z : ℕ} (hz : z = 0 ∨ 4 ≤ z) {n : ℕ}
    (hn : ids.length < n) : instructionIds n (ids.flatMap TypeLen.octets ++ .replicate z 0) = .ok ids := by
  induction ids generalizing n with
  | nil =>
    obtain ⟨n, rfl⟩ : ∃ m, n = m + 1 := ⟨n - 1, by rw [List.length_nil] at hn; omega⟩
    rw [List.flatMap_nil, List.nil_append, instructionIds]
    rcases hz with rfl | hz
    · rfl
    · have hne : List.replicate z (0 : UInt8) ≠ [] := List.ne_nil_of_length_pos (by
        rw [List.length_replicate]
        omega)
      have hlen : (TypeLen.ofBuf (.replicate z 0)).len.toNat < 4 := by
        rw [TypeLen.ofBuf, field_replicate, field_replicate]
        decide
      rw [if_neg hne, if_neg (by rw [List.length_replicate]; omega)]
      dsimp only
      rw [if_pos hlen]
  | cons i ids ih =>
    obtain ⟨n, rfl⟩ : ∃ m, n = m + 1 := ⟨n - 1, by rw [List.length_cons] at hn; omega⟩
    have hlen : i.len.toNat = 4 := by
      rw [h i (by simp)]
      rfl
    have htail := ih (fun j hj => h j (by simp [hj])) (n := n) (by
      rw [List.length_cons] at hn
      omega)
    have hlong : 4 ≤ (i.octets ++ (ids.flatMap TypeLen.octets ++ .replicate z 0)).length := by
      rw [List.length_append, TypeLen.length_octets]
      omega
    have hne := List.ne_nil_of_length_pos (Nat.lt_of_lt_of_le (by decide) hlong)
    rw [List.flatMap_cons, List.append_assoc, instructionIds, if_neg hne, if_neg (by omega)]
    dsimp only
    rw [TypeLen.ofBuf_octets, hlen, if_neg (by omega), if_neg (by omega), List.drop_left' i.length_octets, htail]
    rfl

/-- Without the zeros, an id is made up. -/
example : unpack .instructions [0, 0, 0, 12, 0, 1, 0, 4, 0, 3, 0, 4, 0, 5, 0, 4] =
    .ok (instructions [⟨1, 4⟩, ⟨3, 4⟩, ⟨5, 4⟩]) := by decide

theorem actionIds_octets (ids : List TypeLen) (rest : List UInt8) :
    actionIds ids.length (ids.flatMap TypeLen.octets ++ rest) = ids := by
  induction ids with
  | nil => rfl
  | cons i ids ih =>
    rw [List.flatMap_cons, List.append_assoc, List.length_cons, actionIds, TypeLen.ofBuf_octets,
      List.drop_left' i.length_octets, ih]

/-- The class of an OXM stands in the first two octets of its id. -/
theorem field_class {n v : ℕ} (hv : v < 256 ^ (2 + n)) (rest : List UInt8) :
    field (octets (2 + n) v ++ rest) 0 2 = v / 256 ^ n := by
  have hclass : v / 256 ^ n < 256 ^ 2 := Nat.div_lt_of_lt_mul (by rwa [← pow_add, Nat.add_comm n 2])
  rw [octets_add, List.append_assoc, field_octets_of_lt hclass]

theorem oxmIds_exp {idsExp : List UInt64}
    (h : ∀ i ∈ idsExp, i.toNat / 281474976710656 = Openflow.OFPXMC_EXPERIMENTER.toNat) {n : ℕ} (hn : idsExp.length ≤ n) :
    oxmIds n (idsExp.flatMap fun i => octets 8 i.toNat) = .ok ([], idsExp) := by
  induction idsExp generalizing n with
  | nil => cases n <;> rfl
  | cons i idsExp ih =>
    obtain ⟨n, rfl⟩ : ∃ m, n = m + 1 := ⟨n - 1, by rw [List.length_cons] at hn; omega⟩
    have htail := ih (fun j hj => h j (by simp [hj])) (n := n) (by
      rw [List.length_cons] at hn
      omega)
    have hlong : 8 ≤ (octets 8 i.toNat ++ idsExp.flatMap fun i => octets 8 i.toNat).length := by
      rw [List.length_append, length_octets]
      omega
    have hclass := (field_class (n := 6) i.toNat_lt (idsExp.flatMap fun i => octets 8 i.toNat)).trans (h i (by simp))
    rw [List.flatMap_cons, oxmIds, if_neg (by omega)]
    dsimp only
    rw [hclass, if_neg (by decide), if_pos rfl, if_neg (by omega), field_octets_of_lt i.toNat_lt,
      List.drop_left' (length_octets 8 _), htail, UInt64.ofNat_toNat]
    rfl

theorem oxmIds_octets {ids : List UInt32} {idsExp : List UInt64} (h : (oxm ids idsExp).Valid) {n : ℕ}
    (hn : ids.length + idsExp.length ≤ n) : oxmIds n (oxm ids idsExp).ids = .ok (ids, idsExp) := by
  obtain ⟨hids, hexp⟩ := h
  induction ids generalizing n with
  | nil => exact oxmIds_exp hexp (by simpa using hn)
  | cons i l ih =>
    obtain ⟨n, rfl⟩ : ∃ m, n = m + 1 := ⟨n - 1, by rw [List.length_cons] at hn; omega⟩
    have htail := ih (n := n) (by
      rw [List.length_cons] at hn
      omega) fun j hj => hids j (by simp [hj])
    have hcons : (oxm (i :: l) idsExp).ids = octets 4 i.toNat ++ (oxm l idsExp).ids := by
      simp only [Tfp.ids, List.flatMap_cons, List.append_assoc]
    have hlong : 4 ≤ (octets 4 i.toNat ++ (oxm l idsExp).ids).length := by
      rw [List.length_append, length_octets]
      omega
    have hclass := (field_class (n := 2) i.toNat_lt (oxm l idsExp).ids).trans (hids i (by simp))
    rw [hcons, oxmIds, if_neg (by omega)]
    dsimp only
    rw [hclass, if_neg (by decide), if_neg (by decide), if_pos rfl, field_octets_of_lt i.toNat_lt,
      List.drop_left' (length_octets 4 _), htail, UInt32.ofNat_toNat]
    rfl

/-- A property is read back. -/
theorem unpack_image (type : ℕ) {p : Tfp} (hp : p.Valid) (h : p.lengthField < 65536) :
    unpack p.kind (p.image type) = .ok p := by
  have hfour := p.four_le_lengthField
  have hle := p.lengthField_le
  have hids := p.length_ids
  have hlength : field (p.image type) 2 2 = p.lengthField := by
    have := field_length type h []
    rwa [List.append_nil] at this
  have hbody : ((p.image type).drop 4).take (p.lengthField - 4) = p.ids := by
    rw [drop_image]
    exact List.take_left' (by omega)
  have hpad : padded p.lengthField = p.length := rfl
  rw [unpack, if_neg (by rw [length_image]; omega)]
  dsimp only
  rw [hlength, if_neg (by omega), hpad, length_image, if_neg (by omega), hbody, drop_image]
  cases p with
  | instructions l =>
    have hlen : (instructions l).lengthField = 4 + l.length * 4 := rfl
    have hmod := padded_mod (instructions l).lengthField
    have hz : (instructions l).length - (instructions l).lengthField = 0 ∨
        4 ≤ (instructions l).length - (instructions l).lengthField := by omega
    have hread := instructionIds_octets hp hz (n := (instructions l).length) (by omega)
    dsimp only [kind, ids]
    rw [hread]
    rfl
  | nextTables l => rfl
  | actions l =>
    have hlen : ((actions l).lengthField - 4) / 4 = l.length := by
      rw [lengthField]
      omega
    dsimp only [kind, ids]
    rw [hlen, actionIds_octets]
  | oxm l lExp =>
    have hlen : (oxm l lExp).lengthField = 4 + l.length * 4 + lExp.length * 8 := rfl
    have hread := oxmIds_octets hp (n := (oxm l lExp).length) (by omega)
    dsimp only [kind]
    rw [hread]
    rfl

end Tfp

theorem tfpKind_lt {type : ℕ} {kind : TfpKind} (h : tfpKind type = some kind) : type < 65536 := by
  unfold tfpKind at h
  split at h
  all_goals first | omega | cases h

namespace TfpMap

/-- Each property is of the class its type is made with, and has ids that can be read
back. -/
def Valid (x : TfpMap) : Prop := ∀ e ∈ x.entries, tfpKind e.1 = some e.2.kind ∧ e.2.Valid

instance (x : TfpMap) : Decidable x.Valid := inferInstanceAs (Decidable (∀ e ∈ x.entries, _))

def image (x : TfpMap) : List UInt8 := x.entries.flatMap fun e => e.2.image e.1

theorem length_image (x : TfpMap) : x.image.length = x.length := by
  simp only [image, List.length_flatMap, Tfp.length_image, length]

theorem pack_replicate (x : TfpMap) : x.pack (.replicate x.length 0) = .ok x.image := by
  unfold pack
  split
  · next hnil =>
    have hlen := x.length_image
    rw [(List.replicate_eq_nil_iff _).mp hnil] at hlen
    rw [hnil, List.eq_nil_of_length_eq_zero hlen]
  · have hpack := Tlv.packAll_replicate (z := (0 : UInt8)) (fun e (_ : e ∈ x.entries) => Tfp.pack_replicate e.1 e.2) 0
    rw [if_neg (by simp)]
    simpa [length, image] using hpack

theorem length_le {x : TfpMap} {e : ℕ × Tfp} (he : e ∈ x.entries) : e.2.length ≤ x.length :=
  List.le_sum_of_mem (List.mem_map_of_mem he)

/-- A property in front of the rest. -/
theorem read_image {type : ℕ} {p : Tfp} (hkind : tfpKind type = some p.kind) (hp : p.Valid)
    (hlength : p.lengthField < 65536) (x : TfpMap) (rest : List UInt8) :
    read x (p.image type ++ rest) = .ok (x.insert type p) := by
  have hfour := p.four_le_lengthField
  have hpad : padded p.lengthField = p.length := rfl
  have htake : (p.image type ++ rest).take p.length = p.image type := List.take_left' (p.length_image type)
  have hlen : (p.image type ++ rest).length = p.length + rest.length := by
    rw [List.length_append, Tfp.length_image]
  rw [read, Tfp.field_type (tfpKind_lt hkind), Tfp.field_length type hlength, if_neg (by omega), hpad,
    if_neg (by omega), hkind, htake]
  dsimp only
  rw [Tfp.unpack_image type hp hlength]
  rfl

theorem unpack_empty (buf : List UInt8) : unpack .empty buf = walker.walk .empty buf := by
  unfold unpack
  split
  · next hnil =>
    rw [hnil]
    rfl
  · rfl

/-- The properties of a table are read back. -/
theorem unpack_image {x : TfpMap} (hx : x.Valid) (h : x.length < 65536) : unpack .empty x.image = .ok x := by
  have hfour : ∀ e ∈ x.entries, 4 ≤ e.2.length := fun e _ => e.2.four_le_lengthField.trans e.2.lengthField_le
  have hlength : ∀ e ∈ x.entries, e.2.lengthField < 65536 := fun e he => by
    have hle := length_le he
    have hfield := e.2.lengthField_le
    omega
  have hheader : ∀ e ∈ x.entries, walker.header ≤ (e.2.image e.1).length := fun e he => by
    rw [Tfp.length_image]
    exact hfour e he
  have hsize : ∀ e ∈ x.entries, ∀ rest, walker.size (e.2.image e.1 ++ rest) = (e.2.image e.1).length :=
    fun e he rest => by
      show max 4 (padded (field (e.2.image e.1 ++ rest) 2 2)) = _
      rw [Tfp.field_length e.1 (hlength e he), Tfp.length_image]
      exact max_eq_right (hfour e he)
  have hread : ∀ e ∈ x.entries, ∀ (s : TfpMap) rest, walker.read s (e.2.image e.1 ++ rest) = .ok (s.insert e.1 e.2) :=
    fun e he s rest => read_image (hx e he).1 (hx e he).2 (hlength e he) s rest
  have hwalk := Tlv.Walker.walk_encode hheader hsize hread .empty []
  rw [unpack_empty]
  rw [List.append_nil] at hwalk
  rw [image, hwalk, Tlv.Walker.walk_short (by decide)]
  have hfold := x.foldl_insert fun _ p => p
  rw [hfold]
  exact congrArg Except.ok (Omap.ext (by simp [Omap.map]))

end TfpMap

/-! ## Tables in zeros -/

theorem length_strncpy (s : List UInt8) (n : ℕ) : (strncpy s n).length = n := by
  simp only [strncpy, List.length_append, List.length_replicate, List.length_take]
  omega

theorem ne_nul {s : List UInt8} (hnul : 0 ∉ s) : ∀ c ∈ s, decide (c ≠ 0) = true := by
  intro c hc
  have hne : c ≠ 0 := fun h => hnul (h ▸ hc)
  simpa using hne

theorem strncpy_of_not_mem {s : List UInt8} {n : ℕ} (hlen : s.length ≤ n) (hnul : 0 ∉ s) :
    strncpy s n = s ++ .replicate (n - s.length) 0 := by
  have hall : s.takeWhile (· ≠ 0) = s := List.takeWhile_eq_self_iff.mpr (ne_nul hnul)
  simp only [strncpy]
  rw [hall, List.take_of_length_le hlen]

namespace CoftableFeatures

theorem length_nameField (name : List UInt8) (last : UInt8) : (nameField name last).length = 32 := by
  rw [nameField, List.length_append, length_strncpy]
  rfl

/-- A name that is not too long is what stands before the first NUL. -/
theorem takeWhile_nameField {name : List UInt8} (hlen : name.length ≤ 31) (hnul : 0 ∉ name) :
    (nameField name 0).takeWhile (· ≠ 0) = name := by
  have hmax : Openflow.OFP_MAX_TABLE_NAME_LEN - 1 = 31 := rfl
  have hfield : nameField name 0 = name ++ 0 :: .replicate (31 - name.length) 0 := by
    rw [nameField, hmax, strncpy_of_not_mem hlen hnul, ite_self, List.append_assoc, ← List.replicate_succ',
      List.replicate_succ]
  rw [hfield, List.takeWhile_append_of_pos (ne_nul hnul)]
  simp

/-- Tables of version 1.3, with names that are not too long. -/
structure Valid (t : CoftableFeatures) : Prop where
  version : t.ofpVersion = Openflow13.OFP_VERSION
  name : t.name.length ≤ 31
  nul : 0 ∉ t.name
  properties : t.properties.Valid

instance (t : CoftableFeatures) : Decidable t.Valid :=
  decidable_of_iff (t.ofpVersion = Openflow13.OFP_VERSION ∧ t.name.length ≤ 31 ∧ 0 ∉ t.name ∧ t.properties.Valid)
    ⟨fun ⟨hv, hn, h0, hp⟩ => ⟨hv, hn, h0, hp⟩, fun h => ⟨h.version, h.name, h.nul, h.properties⟩⟩

/-- The table in a buffer of zeros. -/
def image (t : CoftableFeatures) : List UInt8 :=
  Record.write layout (t.fields 0) (.replicate (Record.size layout) 0) ++ t.properties.image

theorem fits_fields (t : CoftableFeatures) (last : UInt8) : Record.Fits layout (t.fields last) := by
  have hname : number (nameField t.name last) < 256 ^ 32 := by
    have hlt := number_lt (nameField t.name last)
    rwa [length_nameField] at hlt
  exact ⟨Nat.mod_lt _ (by decide), t.tableId.toNat_lt, hname, t.metadataMatch.toNat_lt, t.metadataWrite.toNat_lt,
    t.config.toNat_lt, t.maxEntries.toNat_lt, rfl⟩

theorem length_hdr (t : CoftableFeatures) :
    (Record.write layout (t.fields 0) (.replicate (Record.size layout) 0)).length = Record.size layout := by
  rw [Record.length_write (t.fits_fields 0) (by simp), List.length_replicate]

theorem length_image (t : CoftableFeatures) : t.image.length = t.size := by
  rw [image, List.length_append, length_hdr, TfpMap.length_image, size]

theorem read_image (t : CoftableFeatures) (rest : List UInt8) : Record.read layout (t.image ++ rest) = t.fields 0 := by
  rw [image, List.append_assoc, Record.read_append t.length_hdr.ge,
    Record.read_write (t.fits_fields 0) (by rw [List.length_replicate])]

theorem field_length (t : CoftableFeatures) (h : t.size < 65536) (rest : List UInt8) :
    field (t.image ++ rest) 0 2 = t.size := by
  have hhead := (List.cons.inj (t.read_image rest)).1
  exact hhead.trans (Nat.mod_eq_of_lt h)

theorem field_tableId (t : CoftableFeatures) (rest : List UInt8) : field (t.image ++ rest) 2 1 = t.tableId.toNat :=
  (List.cons.inj (List.cons.inj (t.read_image rest)).2).1

theorem pack_replicate {t : CoftableFeatures} (hv : t.ofpVersion = Openflow13.OFP_VERSION) :
    t.pack (.replicate t.size 0) = .ok t.image := by
  have hsize : t.size = Record.size layout + t.properties.length := rfl
  have hpos : 0 < Record.size layout := by decide
  have hne : List.replicate t.size (0 : UInt8) ≠ [] := List.ne_nil_of_length_pos (by
    rw [List.length_replicate]
    omega)
  have hlast : (List.replicate t.size (0 : UInt8)).getD 39 0 = 0 := by
    rw [List.getD_eq_getElem?_getD, List.getElem?_replicate]
    split <;> rfl
  rw [pack, if_neg hne, if_neg (not_not.mpr hv), if_neg (by simp), hlast, List.drop_replicate, List.take_replicate,
    hsize, Nat.add_sub_cancel_left, Nat.min_eq_left (by omega), TfpMap.pack_replicate]
  rfl

/-- The table that is read has all 32 characters of the name. -/
theorem unpack_image {t : CoftableFeatures} (ht : t.Valid) (h : t.size < 65536) :
    (new Openflow13.OFP_VERSION).unpack t.image = .ok { t with name := nameField t.name 0 } := by
  have hsize : t.size = Record.size layout + t.properties.length := rfl
  have hread : Record.read layout t.image = t.fields 0 := by
    have := t.read_image []
    rwa [List.append_nil] at this
  have hlength : field t.image 0 2 = t.size := by
    have := t.field_length h []
    rwa [List.append_nil] at this
  have hproplen : proplen t.image = t.properties.length := by
    rw [proplen, hlength, length_image, if_neg (by omega)]
    omega
  have hprops : (t.image.drop (Record.size layout)).take (proplen t.image) = t.properties.image := by
    rw [hproplen, image, List.drop_left' t.length_hdr, ← TfpMap.length_image, List.take_length]
  have hname : octets Openflow.OFP_MAX_TABLE_NAME_LEN (number (nameField t.name 0)) = nameField t.name 0 := by
    have := octets_number (nameField t.name 0)
    rwa [length_nameField] at this
  have hempty : ((new Openflow13.OFP_VERSION).ofFields (t.fields 0)).properties = .empty := rfl
  have hunpack := TfpMap.unpack_image ht.properties (by omega)
  have hversion : (new Openflow13.OFP_VERSION).ofpVersion = Openflow13.OFP_VERSION := rfl
  rw [unpack, if_neg (not_not.mpr hversion), if_neg (by rw [length_image]; omega), hread]
  dsimp only
  rw [hprops, hempty, hunpack]
  refine congrArg Except.ok ?_
  simp only [ofFields, fields, new, hname, UInt8.ofNat_toNat, UInt64.ofNat_toNat, UInt32.ofNat_toNat, ← ht.version]

end CoftableFeatures

namespace Coftables

/-- Tables under their ids. -/
structure Valid (x : Coftables) : Prop where
  version : x.ofpVersion = Openflow13.OFP_VERSION
  tables : ∀ e ∈ x.tables.entries, e.1 = e.2.tableId.toNat ∧ e.2.Valid

instance (x : Coftables) : Decidable x.Valid :=
  decidable_of_iff (x.ofpVersion = Openflow13.OFP_VERSION ∧ ∀ e ∈ x.tables.entries, e.1 = e.2.tableId.toNat ∧ e.2.Valid)
    ⟨fun ⟨hv, ht⟩ => ⟨hv, ht⟩, fun h => ⟨h.version, h.tables⟩⟩

/-- The tables with their names up to the first NUL. -/
def cutNames (x : Coftables) : Coftables :=
  { x with tables := x.tables.map fun _ t => { t with name := t.name.takeWhile (· ≠ 0) } }

def image (x : Coftables) : List UInt8 := x.tables.entries.flatMap fun e => e.2.image

theorem length_image (x : Coftables) : x.image.length = x.size := by
  simp only [image, List.length_flatMap, CoftableFeatures.length_image, size]

theorem Valid.length_eq {x : Coftables} (hx : x.Valid) : x.length = .ok x.size :=
  if_pos fun e he => (hx.tables e he).2.version

theorem pack_replicate {x : Coftables} (hx : x.Valid) : x.pack (.replicate x.size 0) = .ok x.image := by
  unfold pack
  split
  · next hnil =>
    have hlen := x.length_image
    rw [(List.replicate_eq_nil_iff _).mp hnil] at hlen
    rw [hnil, List.eq_nil_of_length_eq_zero hlen]
  · have hpack := Tlv.packAll_replicate (z := (0 : UInt8))
      (fun e (he : e ∈ x.tables.entries) => CoftableFeatures.pack_replicate (hx.tables e he).2.version) 0
    rw [hx.length_eq]
    show (if (List.replicate x.size (0 : UInt8)).length < x.size then _ else _) = _
    rw [if_neg (by simp)]
    simpa [size, image] using hpack

theorem size_le {x : Coftables} {e : ℕ × CoftableFeatures} (he : e ∈ x.tables.entries) : e.2.size ≤ x.size :=
  List.le_sum_of_mem (List.mem_map_of_mem (f := fun e : ℕ × CoftableFeatures => e.2.size) he)

/-- A table in front of the rest. -/
theorem read_image {t : CoftableFeatures} (ht : t.Valid) (h : t.size < 65536) (x : Omap ℕ CoftableFeatures)
    (rest : List UInt8) : read Openflow13.OFP_VERSION x (t.image ++ rest) =
      .ok (x.insert t.tableId.toNat { t with name := CoftableFeatures.nameField t.name 0 }) := by
  have hsize : t.size = Record.size CoftableFeatures.layout + t.properties.length := rfl
  have hpos : Record.size CoftableFeatures.layout = 64 := rfl
  have htake : (t.image ++ rest).take t.size = t.image := List.take_left' t.length_image
  have hlen : (t.image ++ rest).length = t.size + rest.length := by
    rw [List.length_append, CoftableFeatures.length_image]
  rw [read, if_neg (by omega), t.field_length h, t.field_tableId]
  dsimp only
  rw [if_neg (by omega), htake, CoftableFeatures.unpack_image ht h]
  rfl

/-- A table as it is read: with all 32 characters of the name. -/
def padName (t : CoftableFeatures) : CoftableFeatures := { t with name := CoftableFeatures.nameField t.name 0 }

theorem walk_image {x : Coftables} (hx : x.Valid) (h : x.size < 65536) :
    (walker Openflow13.OFP_VERSION).walk .empty x.image = .ok (x.tables.map fun _ t => padName t) := by
  have hlt : ∀ e ∈ x.tables.entries, e.2.size < 65536 := fun e he => (size_le he).trans_lt h
  have hpos : ∀ e ∈ x.tables.entries, 1 ≤ e.2.size := fun e _ => Nat.le_trans (by decide) (Nat.le_add_right _ _)
  have hheader : ∀ e ∈ x.tables.entries, (walker Openflow13.OFP_VERSION).header ≤ e.2.image.length := fun e he => by
    rw [CoftableFeatures.length_image]
    exact hpos e he
  have hsize : ∀ e ∈ x.tables.entries, ∀ rest,
      (walker Openflow13.OFP_VERSION).size (e.2.image ++ rest) = e.2.image.length := fun e he rest => by
    show max 1 (field (e.2.image ++ rest) 0 2) = _
    rw [e.2.field_length (hlt e he), CoftableFeatures.length_image]
    exact max_eq_right (hpos e he)
  have hread : ∀ e ∈ x.tables.entries, ∀ (s : Omap ℕ CoftableFeatures) rest,
      (walker Openflow13.OFP_VERSION).read s (e.2.image ++ rest) =
        .ok (s.insert e.1 (padName e.2)) := fun e he s rest => by
    rw [(hx.tables e he).1]
    exact read_image (hx.tables e he).2 (hlt e he) s rest
  have hwalk := Tlv.Walker.walk_encode hheader hsize hread .empty []
  rw [List.append_nil, Tlv.Walker.walk_short (s := List.foldl _ _ _) (by decide)] at hwalk
  rw [image, hwalk, x.tables.foldl_insert fun _ t => padName t]

theorem unpack_new (ofpVersion : UInt8) (buf : List UInt8) :
    (new ofpVersion).unpack buf = (walker ofpVersion).walk .empty buf >>= fun tables => .ok ⟨ofpVersion, tables⟩ := by
  unfold unpack
  split
  · next hnil =>
    rw [hnil]
    rfl
  · rfl

/-- Tables packed into a buffer of zeros that is as long as they are, and less than 64 kB,
are read back by a new object: the same tables, with the same names up to the first
NUL. -/
theorem roundTrips {x : Coftables} (hx : x.Valid) (h : x.size < 65536) :
    ∃ buf y, x.length = .ok x.size ∧ x.pack (.replicate x.size 0) = .ok buf ∧
      (new x.ofpVersion).unpack buf = .ok y ∧ y.cutNames = x := by
  refine ⟨x.image, ⟨x.ofpVersion, x.tables.map fun _ t => padName t⟩, hx.length_eq, pack_replicate hx, ?_, ?_⟩
  · rw [unpack_new, hx.version, walk_image hx h]
    rfl
  · have hname : ∀ e ∈ x.tables.entries,
        (e.1, { padName e.2 with name := (padName e.2).name.takeWhile (· ≠ 0) }) = e := fun e he => by
      have ht := (hx.tables e he).2
      have hcut := CoftableFeatures.takeWhile_nameField ht.name ht.nul
      simp only [padName, hcut]
    have htables : (x.tables.map fun _ t => padName t).map
        (fun _ t => { t with name := t.name.takeWhile (· ≠ 0) }) = x.tables := Omap.ext (by
      simp only [Omap.map, List.map_map]
      exact (List.map_congr_left hname).trans (List.map_id _))
    rw [cutNames, htables]

/-- Two instructions with zeros behind them, an instruction without, three next tables, no
actions, and OXMs of both classes. -/
def pair : Coftables :=
  let first : TfpMap := ((Omap.empty.insert 0 (.instructions [⟨1, 4⟩, ⟨4, 4⟩])).insert 2 (.nextTables [1, 2, 9])).insert 8
    (.oxm [0x80000004, 0x80000a02] [0xffff020400000077])
  let second : TfpMap := (Omap.empty.insert 1 (.instructions [⟨1, 4⟩])).insert 4 (.actions [])
  ⟨Openflow13.OFP_VERSION, (Omap.empty.insert 0 ⟨Openflow13.OFP_VERSION, 0, [0x61, 0x63, 0x6c], 1, 2, 3, 4, first⟩).insert 7
    ⟨Openflow13.OFP_VERSION, 7, [], 0, 0, 0, 0, second⟩⟩

theorem roundTrips_pair : ∃ buf y, pair.length = .ok pair.size ∧ pair.pack (.replicate pair.size 0) = .ok buf ∧
    (new pair.ofpVersion).unpack buf = .ok y ∧ y.cutNames = pair :=
  roundTrips (by decide) (by decide)

end Coftables

end RoflCommon
