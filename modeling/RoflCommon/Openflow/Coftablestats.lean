/-
The statistics of tables: `coftable_stats_reply` and `coftablestatsarray`.

The name of a table is handed to `snprintf` for the format, with its length for an
argument. An array that is packed into zeros comes back if and only if there is no percent
sign in any of the names (`Coftablestatsarray.comesBack_iff`).
-/
import RoflCommon.Lib.Record
import RoflCommon.Openflow.TextArrays

namespace RoflCommon

open Octets Snprintf

/-- `coftable_stats_reply`. -/
structure CoftableStatsReply where
  ofVersion : UInt8
  tableId : UInt8
  name : List UInt8
  match_ : BitVec 64
  wildcards : BitVec 64
  writeActions : BitVec 32
  applyActions : BitVec 32
  writeSetfields : BitVec 64
  applySetfields : BitVec 64
  metadataMatch : UInt64
  metadataWrite : UInt64
  instructions : BitVec 32
  config : UInt32
  maxEntries : UInt32
  activeCount : UInt32
  lookupCount : UInt64
  matchedCount : UInt64
deriving DecidableEq

namespace CoftableStatsReply

def new (ofVersion : UInt8) : CoftableStatsReply := ⟨ofVersion, 0xff, [], 0, 0, 0, 0, 0, 0, 0, 0, 0, 0, 0, 0, 0, 0⟩

/-- `struct ofp_table_stats`. -/
def layout (v : UInt8) : Option Record.Layout :=
  if v = Openflow10.OFP_VERSION then
    some [.field 1, .pad 3, .field 32, .field 4, .field 4, .field 4, .field 8, .field 8]
  else if v = Openflow12.OFP_VERSION then
    some [.field 1, .pad 7, .field 32, .field 8, .field 8, .field 4, .field 4, .field 8, .field 8, .field 8, .field 8,
          .field 4, .field 4, .field 4, .field 4, .field 8, .field 8]
  else if v = Openflow13.OFP_VERSION then some [.field 1, .pad 3, .field 4, .field 8, .field 8]
  else none

/-- The numbers that are written, the name being what is in its field afterwards. -/
def values (e : CoftableStatsReply) (name : List UInt8) : List ℕ :=
  if e.ofVersion = Openflow10.OFP_VERSION then
    [e.tableId.toNat, number name, e.wildcards.toNat % 4294967296, e.maxEntries.toNat, e.activeCount.toNat,
     e.lookupCount.toNat, e.matchedCount.toNat]
  else if e.ofVersion = Openflow12.OFP_VERSION then
    [e.tableId.toNat, number name, e.match_.toNat, e.wildcards.toNat, e.writeActions.toNat, e.applyActions.toNat,
     e.writeSetfields.toNat, e.applySetfields.toNat, e.metadataMatch.toNat, e.metadataWrite.toNat,
     e.instructions.toNat, e.config.toNat, e.maxEntries.toNat, e.activeCount.toNat, e.lookupCount.toNat,
     e.matchedCount.toNat]
  else [e.tableId.toNat, e.activeCount.toNat, e.lookupCount.toNat, e.matchedCount.toNat]

/-- Where the name is in a structure; there is none in 1.3. -/
def nameOffset (v : UInt8) : Option ℕ :=
  if v = Openflow10.OFP_VERSION then some 4 else if v = Openflow12.OFP_VERSION then some 8 else none

def fields (e : CoftableStatsReply) (buf : List UInt8) : Option (List ℕ) :=
  match nameOffset e.ofVersion with
  | some off => (snprintf ((buf.drop off).take 32) e.name e.name.length).map e.values
  | none => some (e.values [])

/-- What is read into a new object: a name up to its first NUL. -/
def ofFields (v : UInt8) : List ℕ → CoftableStatsReply
  | [tableId, name, wildcards, maxEntries, activeCount, lookupCount, matchedCount] =>
    { new v with tableId := .ofNat tableId, name := text (octets 32 name), wildcards := .ofNat 64 wildcards,
                 maxEntries := .ofNat maxEntries, activeCount := .ofNat activeCount, lookupCount := .ofNat lookupCount,
                 matchedCount := .ofNat matchedCount }
  | [tableId, name, match_, wildcards, writeActions, applyActions, writeSetfields, applySetfields, metadataMatch,
      metadataWrite, instructions, config, maxEntries, activeCount, lookupCount, matchedCount] =>
    ⟨v, .ofNat tableId, text (octets 32 name), .ofNat 64 match_, .ofNat 64 wildcards, .ofNat 32 writeActions,
     .ofNat 32 applyActions, .ofNat 64 writeSetfields, .ofNat 64 applySetfields, .ofNat metadataMatch,
     .ofNat metadataWrite, .ofNat 32 instructions, .ofNat config, .ofNat maxEntries, .ofNat activeCount,
     .ofNat lookupCount, .ofNat matchedCount⟩
  | [tableId, activeCount, lookupCount, matchedCount] =>
    { new v with tableId := .ofNat tableId, activeCount := .ofNat activeCount, lookupCount := .ofNat lookupCount,
                 matchedCount := .ofNat matchedCount }
  | _ => new v

def size (e : CoftableStatsReply) : ℕ := Record.size ((layout e.ofVersion).getD [])

def pack (e : CoftableStatsReply) (buf : List UInt8) : Except TextException (List UInt8) :=
  match layout e.ofVersion with
  | none => .error .badVersion
  | some l =>
    if buf.length < Record.size l then .error .inval
    else
      match e.fields buf with
      | none => .error .undefined
      | some fs => .ok (Record.write l fs buf)

/-- A new entry of the version unpacks. -/
def unpack (v : UInt8) (buf : List UInt8) : Except TextException CoftableStatsReply :=
  match layout v with
  | none => .error .badVersion
  | some l => if buf.length < Record.size l then .error .inval else .ok (ofFields v (Record.read l buf))

/-- What the structure of the version has fields for; the rest is as in a new entry. -/
def carried (e : CoftableStatsReply) : CoftableStatsReply :=
  if e.ofVersion = Openflow10.OFP_VERSION then
    { new e.ofVersion with tableId := e.tableId, name := e.name, wildcards := e.wildcards, maxEntries := e.maxEntries,
                           activeCount := e.activeCount, lookupCount := e.lookupCount, matchedCount := e.matchedCount }
  else e

end CoftableStatsReply

/-- `coftablestatsarray`. -/
structure Coftablestatsarray where
  ofpVersion : UInt8
  array : Omap ℕ CoftableStatsReply
deriving DecidableEq

namespace Coftablestatsarray

def new (ofpVersion : UInt8) : Coftablestatsarray := ⟨ofpVersion, .empty⟩

/-- `length()` throws for an entry of no version. -/
def length (x : Coftablestatsarray) : Except TextException ℕ :=
  if ∀ e ∈ x.array.entries, (CoftableStatsReply.layout e.2.ofVersion).isSome then
    .ok (x.array.entries.map fun e => e.2.size).sum
  else .error .badVersion

def pack (x : Coftablestatsarray) (buf : List UInt8) : Except TextException (List UInt8) :=
  if buf = [] then .ok buf
  else do
    let length ← x.length
    if buf.length < length then throw .inval
    else if (CoftableStatsReply.layout x.ofpVersion).isNone then throw .badVersion
    else Tlv.packAll (fun e => e.2.size) (fun e => e.2.pack) x.array.entries buf

/-- An entry is put under the table id that it unpacks. -/
def unpack (x : Coftablestatsarray) (buf : List UInt8) : Except TextException Coftablestatsarray :=
  match CoftableStatsReply.layout x.ofpVersion with
  | none => .error .badRequestVersion
  | some l => do
    let unpackEntry := CoftableStatsReply.unpack x.ofpVersion
    return { x with array := ← (TextArray.walker (Record.size l) unpackEntry fun e => e.tableId.toNat).walk .empty buf }

/-- An array of version 1.0 or 1.2: entries of the version under their table ids, with names
that are shorter than the field and without a NUL, and wildcards of 32 bits in 1.0. -/
structure Keyed (x : Coftablestatsarray) : Prop where
  version : x.ofpVersion = Openflow10.OFP_VERSION ∨ x.ofpVersion = Openflow12.OFP_VERSION
  ofVersion : ∀ e ∈ x.array.entries, e.2.ofVersion = x.ofpVersion
  key : ∀ e ∈ x.array.entries, e.2.tableId.toNat = e.1
  name : ∀ e ∈ x.array.entries, e.2.name.length < 32
  nul : ∀ e ∈ x.array.entries, 0 ∉ e.2.name
  wildcards : x.ofpVersion = Openflow10.OFP_VERSION → ∀ e ∈ x.array.entries, e.2.wildcards.toNat < 4294967296

/-- Packed into as many zeros as it is long, the array is unpacked by a new one with the
same entries, as far as the version has fields for them. -/
def RoundTrips (x : Coftablestatsarray) : Prop :=
  ∃ n buf y, x.length = .ok n ∧ x.pack (.replicate n 0) = .ok buf ∧ (new x.ofpVersion).unpack buf = .ok y ∧
    ∀ k, y.array.find? k = (x.array.find? k).map CoftableStatsReply.carried

end Coftablestatsarray

/-! ## One entry in zeros -/

namespace CoftableStatsReply

/-- An entry of version 1.0 or 1.2 that fits its structure, but for percent signs. -/
structure Fits (e : CoftableStatsReply) : Prop where
  version : e.ofVersion = Openflow10.OFP_VERSION ∨ e.ofVersion = Openflow12.OFP_VERSION
  name : e.name.length < 32
  nul : 0 ∉ e.name
  wildcards : e.ofVersion = Openflow10.OFP_VERSION → e.wildcards.toNat < 4294967296

variable {e : CoftableStatsReply}

theorem exists_layout (he : e.Fits) : ∃ l off, layout e.ofVersion = some l ∧ nameOffset e.ofVersion = some off ∧
    off + 32 ≤ Record.size l := by
  rcases he.version with hv | hv
  · rw [hv]
    exact ⟨_, _, rfl, rfl, by decide⟩
  · rw [hv]
    exact ⟨_, _, rfl, rfl, by decide⟩

theorem fits_values (he : e.Fits) {l : Record.Layout} (hl : layout e.ofVersion = some l) {name : List UInt8}
    (hname : name.length = 32) : Record.Fits l (e.values name) := by
  have hlt : number name < 256 ^ 32 := by
    have := number_lt name
    rwa [hname] at this
  rcases he.version with hv | hv
  · rw [hv] at hl
    cases hl
    rw [values, if_pos hv]
    exact ⟨e.tableId.toNat_lt, hlt, Nat.mod_lt _ (by decide), e.maxEntries.toNat_lt, e.activeCount.toNat_lt,
      e.lookupCount.toNat_lt, e.matchedCount.toNat_lt, rfl⟩
  · have hne : e.ofVersion ≠ Openflow10.OFP_VERSION := by
      rw [hv]
      decide
    rw [hv] at hl
    cases hl
    rw [values, if_neg hne, if_pos hv]
    exact ⟨e.tableId.toNat_lt, hlt, e.match_.isLt, e.wildcards.isLt, e.writeActions.isLt, e.applyActions.isLt,
      e.writeSetfields.isLt, e.applySetfields.isLt, e.metadataMatch.toNat_lt, e.metadataWrite.toNat_lt,
      e.instructions.isLt, e.config.toNat_lt, e.maxEntries.toNat_lt, e.activeCount.toNat_lt, e.lookupCount.toNat_lt,
      e.matchedCount.toNat_lt, rfl⟩

/-- What is read of what was written is what the version has fields for, with the name that
is in its field. -/
theorem ofFields_values (he : e.Fits) {name : List UInt8} (hname : name.length = 32) :
    ofFields e.ofVersion (e.values name) = { e.carried with name := text name } := by
  have hoctets : octets 32 (number name) = name := by
    rw [← hname, octets_number]
  rcases he.version with hv | hv
  · have hwildcards := he.wildcards hv
    rw [values, if_pos hv, carried, if_pos hv, ofFields, hoctets, Nat.mod_eq_of_lt hwildcards]
    simp [new]
  · have hne : e.ofVersion ≠ Openflow10.OFP_VERSION := by
      rw [hv]
      decide
    rw [values, if_neg hne, if_pos hv, carried, if_neg hne, ofFields, hoctets]
    simp

theorem pack_zeros (he : e.Fits) {l : Record.Layout} (hl : layout e.ofVersion = some l) :
    e.pack (.replicate (Record.size l) 0) =
      match snprintf (.replicate 32 0) e.name e.name.length with
      | none => .error .undefined
      | some name => .ok (Record.write l (e.values name) (.replicate (Record.size l) 0)) := by
  obtain ⟨l', off, hl', hoff, hsize⟩ := exists_layout he
  obtain rfl : l' = l := Option.some.inj (hl'.symm.trans hl)
  have hfield : ((List.replicate (Record.size l') (0 : UInt8)).drop off).take 32 = .replicate 32 0 := by
    rw [List.drop_replicate, List.take_replicate, Nat.min_eq_left (by omega)]
  rw [pack, hl, fields, hoff]
  dsimp only
  rw [if_neg (by simp), hfield]
  cases snprintf (.replicate 32 0) e.name e.name.length <;> rfl

theorem pack_zeros_ok (he : e.Fits) {l : Record.Layout} (hl : layout e.ofVersion = some l) {buf : List UInt8}
    (h : e.pack (.replicate (Record.size l) 0) = .ok buf) :
    buf.length = Record.size l ∧ ∃ name, snprintf (.replicate 32 0) e.name e.name.length = some name ∧
      ofFields e.ofVersion (Record.read l buf) = { e.carried with name := text name } := by
  rw [pack_zeros he hl] at h
  cases hname : snprintf (.replicate 32 0) e.name e.name.length with
  | none =>
    rw [hname] at h
    cases h
  | some name =>
    rw [hname] at h
    cases h
    have hlen : name.length = 32 := (length_snprintf (by decide) hname).trans (List.length_replicate ..)
    have hfits := fits_values he hl hlen
    refine ⟨?_, name, rfl, ?_⟩
    · rw [Record.length_write hfits (by simp), List.length_replicate]
    · rw [Record.read_write hfits (by simp), ofFields_values he hlen]

theorem carried_name : e.carried.name = e.name := by
  unfold carried
  split <;> rfl

theorem carried_tableId : e.carried.tableId = e.tableId := by
  unfold carried
  split <;> rfl

/-- **An entry comes back exactly if there is no percent sign in its name.** -/
theorem comesBack_iff (he : e.Fits) {l : Record.Layout} (hl : layout e.ofVersion = some l) :
    (∃ buf, e.pack (.replicate (Record.size l) 0) = .ok buf ∧ ofFields e.ofVersion (Record.read l buf) = e.carried) ↔
      percent ∉ e.name := by
  rw [← snprintf_iff he.name he.nul]
  constructor
  · rintro ⟨buf, hbuf, hread⟩
    obtain ⟨-, name, hname, hdecoded⟩ := pack_zeros_ok he hl hbuf
    refine ⟨name, hname, ?_⟩
    have htext := congrArg CoftableStatsReply.name (hdecoded.symm.trans hread)
    rwa [carried_name] at htext
  · rintro ⟨name, hname, htext⟩
    have hpack := pack_zeros he hl
    rw [hname] at hpack
    refine ⟨_, hpack, ?_⟩
    obtain ⟨-, name', hname', hdecoded⟩ := pack_zeros_ok he hl hpack
    obtain rfl : name' = name := Option.some.inj (hname'.symm.trans hname)
    rw [hdecoded, htext, ← carried_name]

end CoftableStatsReply

namespace Coftablestatsarray

theorem Keyed.fits {x : Coftablestatsarray} (hx : x.Keyed) {e : ℕ × CoftableStatsReply} (he : e ∈ x.array.entries) :
    e.2.Fits :=
  ⟨hx.ofVersion e he ▸ hx.version, hx.name e he, hx.nul e he, fun hv => hx.wildcards (hx.ofVersion e he ▸ hv) e he⟩

/-- **An array comes back exactly if there is no percent sign in its names.** -/
theorem comesBack_iff {x : Coftablestatsarray} (hx : x.Keyed) :
    x.RoundTrips ↔ ∀ e ∈ x.array.entries, percent ∉ e.2.name := by
  obtain ⟨l, hl, hpos⟩ : ∃ l, CoftableStatsReply.layout x.ofpVersion = some l ∧ 0 < Record.size l := by
    rcases hx.version with hv | hv
    · rw [hv]
      exact ⟨_, rfl, by decide⟩
    · rw [hv]
      exact ⟨_, rfl, by decide⟩
  have hle : ∀ e ∈ x.array.entries, CoftableStatsReply.layout e.2.ofVersion = some l := fun e he => by
    rw [hx.ofVersion e he, hl]
  have hsize : ∀ e ∈ x.array.entries, e.2.size = Record.size l := fun e he => by
    rw [CoftableStatsReply.size, hle e he, Option.getD_some]
  have hlength : x.length = .ok (x.array.entries.map fun e => e.2.size).sum :=
    if_pos fun e he => by rw [hle e he]; rfl
  have hpack : x.pack (.replicate (x.array.entries.map fun e => e.2.size).sum 0) =
      Tlv.packAll (fun e => e.2.size) (fun e => e.2.pack) x.array.entries
        (.replicate (x.array.entries.map fun e => e.2.size).sum 0) := by
    unfold pack
    split
    · next hnil =>
      have hzero := (List.replicate_eq_nil_iff _).mp hnil
      cases hentries : x.array.entries with
      | nil => rfl
      | cons e es =>
        have hfirst := hsize e (hentries ▸ List.mem_cons_self)
        rw [hentries, List.map_cons, List.sum_cons, hfirst] at hzero
        omega
    · rw [hlength, hl]
      show (if (List.replicate _ (0 : UInt8)).length < _ then _ else _) = _
      rw [if_neg (by simp)]
      rfl
  have hunpack : ∀ buf, (new x.ofpVersion).unpack buf = do
      return { new x.ofpVersion with
        array := ← (TextArray.walker (Record.size l) (CoftableStatsReply.unpack x.ofpVersion)
          fun e => e.tableId.toNat).walk .empty buf } := fun buf => by
    rw [unpack]
    dsimp only [new]
    rw [hl]
  have hkeys : ∀ e ∈ x.array.entries, e.2.carried.tableId.toNat = e.1 := fun e he => by
    rw [CoftableStatsReply.carried_tableId, hx.key e he]
  have hentry : ∀ e ∈ x.array.entries, ∀ buf, e.2.pack (.replicate (Record.size l) 0) = .ok buf →
      buf.length = Record.size l ∧
        (CoftableStatsReply.ofFields x.ofpVersion (Record.read l buf)).tableId.toNat = e.1 := by
    intro e he buf hbuf
    obtain ⟨hsize, name, -, hdecoded⟩ := CoftableStatsReply.pack_zeros_ok (hx.fits he) (hle e he) hbuf
    rw [hx.ofVersion e he] at hdecoded
    rw [hdecoded]
    exact ⟨hsize, hkeys e he⟩
  have hunpackEntry : ∀ buf, buf.length = Record.size l → CoftableStatsReply.unpack x.ofpVersion buf =
      .ok (CoftableStatsReply.ofFields x.ofpVersion (Record.read l buf)) := by
    intro buf hbuf
    rw [CoftableStatsReply.unpack, hl]
    exact if_neg (by omega)
  have hiff : (∃ buf array, Tlv.packAll (fun e => e.2.size) (fun e => e.2.pack) x.array.entries
        (.replicate (x.array.entries.map fun e => e.2.size).sum 0) = .ok buf ∧
      (TextArray.walker (Record.size l) (CoftableStatsReply.unpack x.ofpVersion) fun e => e.tableId.toNat).walk .empty
        buf = .ok array ∧ ∀ k, array.find? k = (x.array.find? k).map CoftableStatsReply.carried) ↔
      ∀ e ∈ x.array.entries, ∃ buf, e.2.pack (.replicate (Record.size l) 0) = .ok buf ∧
        CoftableStatsReply.ofFields x.ofpVersion (Record.read l buf) = e.2.carried :=
    TextArray.roundTrip_iff hpos hsize hunpackEntry hentry hkeys
  have hentries : (∀ e ∈ x.array.entries, percent ∉ e.2.name) ↔ ∀ e ∈ x.array.entries, ∃ buf,
      e.2.pack (.replicate (Record.size l) 0) = .ok buf ∧
        CoftableStatsReply.ofFields x.ofpVersion (Record.read l buf) = e.2.carried := by
    refine forall₂_congr fun e he => ?_
    rw [← CoftableStatsReply.comesBack_iff (hx.fits he) (hle e he), hx.ofVersion e he]
  rw [hentries, ← hiff]
  constructor
  · rintro ⟨n, buf, y, hn, hbuf, hy, hfind⟩
    obtain rfl := Except.ok.inj (hlength.symm.trans hn)
    rw [hunpack] at hy
    obtain ⟨array, harray, hy⟩ := Except.bind_eq_ok.mp hy
    cases hy
    exact ⟨buf, array, hpack ▸ hbuf, harray, hfind⟩
  · rintro ⟨buf, array, hbuf, harray, hfind⟩
    refine ⟨_, buf, { new x.ofpVersion with array }, hlength, hpack ▸ hbuf, ?_, hfind⟩
    rw [hunpack, harray]
    rfl

end Coftablestatsarray

end RoflCommon
