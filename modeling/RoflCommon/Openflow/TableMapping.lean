/-
The capabilities of tables in versions 1.2 and 1.3:
`coftables::map_tablestatsarray_to_tables` and `coftables::map_tables_to_tablestatsarray`.

Version 1.2 has a bitmap where 1.3 has a property, a list of ids. Each direction has its
own rows of bits and ids. Bitmaps come back as they were; ids come back where they have
a bit, the ids of OXMs without their mask (`tables_mapped`).
-/
import RoflCommon.Lib.Bitrows
import RoflCommon.Openflow.Coftables
import RoflCommon.Openflow.Coftablestats
import RoflCommon.Openflow.Coxmatches

namespace RoflCommon

namespace Openflow13

def OFPTFPT_INSTRUCTIONS : ℕ := 0
def OFPTFPT_INSTRUCTIONS_MISS : ℕ := 1
def OFPTFPT_WRITE_ACTIONS : ℕ := 4
def OFPTFPT_WRITE_ACTIONS_MISS : ℕ := 5
def OFPTFPT_APPLY_ACTIONS : ℕ := 6
def OFPTFPT_APPLY_ACTIONS_MISS : ℕ := 7
def OFPTFPT_MATCH : ℕ := 8
def OFPTFPT_WILDCARDS : ℕ := 10
def OFPTFPT_WRITE_SETFIELD : ℕ := 12
def OFPTFPT_WRITE_SETFIELD_MISS : ℕ := 13
def OFPTFPT_APPLY_SETFIELD : ℕ := 14
def OFPTFPT_APPLY_SETFIELD_MISS : ℕ := 15

end Openflow13

/-- `eOFTableFeaturePropsNotFound`, and what a cast to another class throws. -/
inductive TfpAccess
  | notFound
  | badCast
deriving DecidableEq, Repr

/-- The 32 bits of an OXM id. -/
def OxmId.word (id : OxmId) : UInt32 := .ofNat (id.type + id.hasmask.toNat * 256 + id.oxmLength.toNat)

namespace TableMapping

open OfbField Openflow Openflow13

/-! ## Bits and ids -/

/-- `map_match_to_prop_oxm`. -/
def oxmOfMatch : List (ℕ × UInt32) :=
  [inPort, inPhyPort, metadata, ethDst, ethSrc, ethType, vlanVid, vlanPcp, ipDscp, ipEcn, ipProto, ipv4Src, ipv4Dst,
   tcpSrc, tcpDst, udpSrc, udpDst, sctpSrc, sctpDst, icmpv4Type, icmpv4Code, arpOp, arpSpa, arpTpa, arpSha, arpTha,
   ipv6Src, ipv6Dst, ipv6Flabel, icmpv6Type, icmpv6Code, ipv6NdTarget, ipv6NdSll, ipv6NdTll, mplsLabel, mplsTc].map
    fun f => ((f.code : ℕ), f.oxmId.word)

/-- The cases of `map_prop_oxm_to_match`, first those without a mask. -/
def matchOfOxm : List (UInt32 × ℕ) :=
  ([inPort, inPhyPort, metadata, ethDst, ethSrc, ethType, vlanVid, vlanPcp, ipDscp, ipEcn, ipProto, ipv4Src, ipv4Dst,
   tcpSrc, tcpDst, udpSrc, udpDst, sctpSrc, sctpDst, icmpv4Type, icmpv4Code, arpOp, arpSpa, arpTpa, arpSha, arpTha,
   ipv6Src, ipv6Dst, ipv6Flabel, icmpv6Type, icmpv6Code, ipv6NdTarget, ipv6NdSll, ipv6NdTll, mplsLabel, mplsTc].map
    fun f => (f.oxmId.word, (f.code : ℕ))) ++
  [metadata, ethDst, ethSrc, vlanVid, ipv4Src, ipv4Dst, arpSpa, arpTpa, arpSha, arpTha, ipv6Src, ipv6Dst, ipv6Flabel].map
    fun f => (f.oxmIdMask.word, (f.code : ℕ))

/-- `map_actions_to_prop_actions`. The actions have the same numbers in both versions. -/
def actionOfActions : List (ℕ × UInt16) :=
  [OFPAT_OUTPUT, OFPAT_COPY_TTL_OUT, OFPAT_COPY_TTL_IN, OFPAT_SET_MPLS_TTL, OFPAT_DEC_MPLS_TTL, OFPAT_PUSH_VLAN,
   OFPAT_POP_VLAN, OFPAT_PUSH_MPLS, OFPAT_POP_MPLS, OFPAT_SET_QUEUE, OFPAT_GROUP, OFPAT_SET_NW_TTL, OFPAT_DEC_NW_TTL,
   OFPAT_SET_FIELD].map fun t => (t, .ofNat t)

/-- `map_prop_actions_to_actions`. -/
def actionsOfAction : List (UInt16 × ℕ) :=
  [OFPAT_OUTPUT, OFPAT_COPY_TTL_OUT, OFPAT_COPY_TTL_IN, OFPAT_SET_MPLS_TTL, OFPAT_DEC_MPLS_TTL, OFPAT_PUSH_VLAN,
   OFPAT_POP_VLAN, OFPAT_PUSH_MPLS, OFPAT_POP_MPLS, OFPAT_SET_QUEUE, OFPAT_GROUP, OFPAT_SET_NW_TTL, OFPAT_DEC_NW_TTL,
   OFPAT_SET_FIELD].map fun t => (.ofNat t, t)

/-- `map_instructions_to_prop_instructions`. -/
def instructionOfInstructions : List (ℕ × UInt16) :=
  [OFPIT_GOTO_TABLE, OFPIT_WRITE_METADATA, OFPIT_WRITE_ACTIONS, OFPIT_APPLY_ACTIONS, OFPIT_CLEAR_ACTIONS].map
    fun t => (t, .ofNat t)

/-- `map_prop_instructions_to_instructions`. -/
def instructionsOfInstruction : List (UInt16 × ℕ) :=
  [OFPIT_GOTO_TABLE, OFPIT_WRITE_METADATA, OFPIT_WRITE_ACTIONS, OFPIT_APPLY_ACTIONS, OFPIT_CLEAR_ACTIONS].map
    fun t => (.ofNat t, t)

/-- The properties that are made of a bitmap; `len` is that of a header. -/
def oxmProp (m : BitVec 64) : Tfp := .oxm (Bitrows.ids oxmOfMatch m) []

def actionsProp (m : BitVec 32) : Tfp := .actions ((Bitrows.ids actionOfActions m).map fun t => ⟨t, 4⟩)

def instructionsProp (m : BitVec 32) : Tfp := .instructions ((Bitrows.ids instructionOfInstructions m).map fun t => ⟨t, 4⟩)

/-! ## Properties -/

/-- The `get_tfp_` functions. -/
def oxmIds (p : TfpMap) (type : ℕ) : Except TfpAccess (List UInt32) :=
  match p.find? type with
  | none => .error .notFound
  | some (.oxm ids _) => .ok ids
  | some _ => .error .badCast

def actionIds (p : TfpMap) (type : ℕ) : Except TfpAccess (List UInt16) :=
  match p.find? type with
  | none => .error .notFound
  | some (.actions ids) => .ok (ids.map TypeLen.type)
  | some _ => .error .badCast

def instructionIds (p : TfpMap) (type : ℕ) : Except TfpAccess (List UInt16) :=
  match p.find? type with
  | none => .error .notFound
  | some (.instructions ids) => .ok (ids.map TypeLen.type)
  | some _ => .error .badCast

/-- `set_tfp_wildcards`, which makes the property if there is none. -/
def withWildcards (p : TfpMap) : TfpMap :=
  if (p.find? OFPTFPT_WILDCARDS).isSome then p else p.insert OFPTFPT_WILDCARDS (.oxm [] [])

/-! ## Tables -/

/-- The properties that are set one after the other in a table that has none. -/
def tableProps (s : CoftableStatsReply) : List (ℕ × Tfp) :=
  [(OFPTFPT_MATCH, oxmProp s.match_), (OFPTFPT_WILDCARDS, oxmProp s.wildcards),
   (OFPTFPT_WRITE_ACTIONS, actionsProp s.writeActions), (OFPTFPT_WRITE_ACTIONS_MISS, actionsProp s.writeActions),
   (OFPTFPT_APPLY_ACTIONS, actionsProp s.applyActions), (OFPTFPT_APPLY_ACTIONS_MISS, actionsProp s.applyActions),
   (OFPTFPT_WRITE_SETFIELD, oxmProp s.writeSetfields), (OFPTFPT_WRITE_SETFIELD_MISS, oxmProp s.writeSetfields),
   (OFPTFPT_APPLY_SETFIELD, oxmProp s.applySetfields), (OFPTFPT_APPLY_SETFIELD_MISS, oxmProp s.applySetfields),
   (OFPTFPT_INSTRUCTIONS, instructionsProp s.instructions), (OFPTFPT_INSTRUCTIONS_MISS, instructionsProp s.instructions)]

/-- A turn of the loop of `map_tablestatsarray_to_tables`. -/
def tableOf (tableId : ℕ) (s : CoftableStatsReply) : CoftableFeatures :=
  { CoftableFeatures.new Openflow13.OFP_VERSION with
    tableId := .ofNat tableId
    name := s.name
    metadataMatch := s.metadataMatch
    metadataWrite := s.metadataWrite
    config := s.config
    maxEntries := s.maxEntries
    properties := Omap.empty.insertAll (tableProps s) }

/-- A turn of the loop of `map_tables_to_tablestatsarray`. -/
def statsOf (tableId : ℕ) (t : CoftableFeatures) : Except TfpAccess CoftableStatsReply := do
  let match_ ← oxmIds t.properties OFPTFPT_MATCH
  let wildcards ← oxmIds (withWildcards t.properties) OFPTFPT_WILDCARDS
  let writeActions ← actionIds t.properties OFPTFPT_WRITE_ACTIONS
  let applyActions ← actionIds t.properties OFPTFPT_APPLY_ACTIONS
  let writeSetfields ← oxmIds t.properties OFPTFPT_WRITE_SETFIELD
  let applySetfields ← oxmIds t.properties OFPTFPT_APPLY_SETFIELD
  let instructions ← instructionIds t.properties OFPTFPT_INSTRUCTIONS
  return { CoftableStatsReply.new Openflow12.OFP_VERSION with
    tableId := .ofNat tableId
    name := t.name
    metadataMatch := t.metadataMatch
    metadataWrite := t.metadataWrite
    config := t.config
    maxEntries := t.maxEntries
    match_ := Bitrows.bits matchOfOxm match_
    wildcards := Bitrows.bits matchOfOxm wildcards
    writeActions := Bitrows.bits actionsOfAction writeActions
    applyActions := Bitrows.bits actionsOfAction applyActions
    writeSetfields := Bitrows.bits matchOfOxm writeSetfields
    applySetfields := Bitrows.bits matchOfOxm applySetfields
    instructions := Bitrows.bits instructionsOfInstruction instructions }

end TableMapping

open TableMapping

def mapTablestatsarrayToTables (s : Coftablestatsarray) : Coftables where
  ofpVersion := Openflow13.OFP_VERSION
  tables := s.array.entries.foldl (fun tables e => tables.insert e.1 (tableOf e.1 e.2)) .empty

/-- The tables, which may be given wildcards, and the array. -/
def mapTablesToTablestatsarray (x : Coftables) : Except TfpAccess (Coftables × Coftablestatsarray) := do
  let array ← x.tables.entries.foldlM (fun array e => do return array.insert e.1 (← statsOf e.1 e.2)) Omap.empty
  return ({ x with tables := x.tables.map fun _ t => { t with properties := withWildcards t.properties } },
    ⟨Openflow12.OFP_VERSION, array⟩)


/-! ## Bitmaps there and back -/

namespace TableMapping

open OfbField Openflow Openflow13

/-- The fields with a bit in version 1.2. -/
def oxmFields12 : List OfbField :=
  [inPort, inPhyPort, metadata, ethDst, ethSrc, ethType, vlanVid, vlanPcp, ipDscp, ipEcn, ipProto, ipv4Src, ipv4Dst,
   tcpSrc, tcpDst, udpSrc, udpDst, sctpSrc, sctpDst, icmpv4Type, icmpv4Code, arpOp, arpSpa, arpTpa, arpSha, arpTha,
   ipv6Src, ipv6Dst, ipv6Flabel, icmpv6Type, icmpv6Code, ipv6NdTarget, ipv6NdSll, ipv6NdTll, mplsLabel, mplsTc]

/-- Those that have a mask there. -/
def oxmMasks12 : List OfbField :=
  [metadata, ethDst, ethSrc, vlanVid, ipv4Src, ipv4Dst, arpSpa, arpTpa, arpSha, arpTha, ipv6Src, ipv6Dst, ipv6Flabel]

def actions12 : List ℕ :=
  [OFPAT_OUTPUT, OFPAT_COPY_TTL_OUT, OFPAT_COPY_TTL_IN, OFPAT_SET_MPLS_TTL, OFPAT_DEC_MPLS_TTL, OFPAT_PUSH_VLAN,
   OFPAT_POP_VLAN, OFPAT_PUSH_MPLS, OFPAT_POP_MPLS, OFPAT_SET_QUEUE, OFPAT_GROUP, OFPAT_SET_NW_TTL, OFPAT_DEC_NW_TTL,
   OFPAT_SET_FIELD]

def instructions12 : List ℕ :=
  [OFPIT_GOTO_TABLE, OFPIT_WRITE_METADATA, OFPIT_WRITE_ACTIONS, OFPIT_APPLY_ACTIONS, OFPIT_CLEAR_ACTIONS]

/-- A bitmap of these bits. -/
def Within {w : ℕ} (m : BitVec w) (bs : List ℕ) : Prop := ∀ b < w, m.getLsbD b = true → b ∈ bs

instance {w : ℕ} (m : BitVec w) (bs : List ℕ) : Decidable (Within m bs) :=
  inferInstanceAs (Decidable (∀ b < w, m.getLsbD b = true → b ∈ bs))

/-- An OXM that has a bit in version 1.2. -/
def HasBit (i : UInt32) : Prop := ∃ f ∈ oxmFields12, i = f.oxmId.word

/-- An OXM, and the same without its mask. -/
def Unmasked (j i : UInt32) : Prop := ∃ f ∈ oxmMasks12, j = f.oxmIdMask.word ∧ i = f.oxmId.word

theorem oxmOfMatch_eq : oxmOfMatch = oxmFields12.map fun f => ((f.code : ℕ), f.oxmId.word) := rfl

theorem matchOfOxm_eq : matchOfOxm = (oxmFields12.map fun f => (f.oxmId.word, (f.code : ℕ))) ++
    oxmMasks12.map fun f => (f.oxmIdMask.word, (f.code : ℕ)) := rfl

theorem actionOfActions_eq : actionOfActions = actions12.map fun t => (t, UInt16.ofNat t) := rfl

theorem actionsOfAction_eq : actionsOfAction = actions12.map fun t => (UInt16.ofNat t, t) := rfl

theorem instructionOfInstructions_eq :
    instructionOfInstructions = instructions12.map fun t => (t, UInt16.ofNat t) := rfl

theorem instructionsOfInstruction_eq :
    instructionsOfInstruction = instructions12.map fun t => (UInt16.ofNat t, t) := rfl

theorem lookup_oxm : ∀ row ∈ oxmOfMatch, matchOfOxm.lookup row.2 = some row.1 := by decide +kernel

theorem lookup_oxmMask : ∀ f ∈ oxmMasks12, matchOfOxm.lookup f.oxmIdMask.word = some (f.code : ℕ) := by decide +kernel

theorem bits_oxm {m : BitVec 64} (hm : Within m (oxmFields12.map fun f => (f.code : ℕ))) :
    Bitrows.bits matchOfOxm (Bitrows.ids oxmOfMatch m) = m := by
  refine Bitrows.bits_ids (by decide) lookup_oxm (by decide) fun b hb hbit => ?_
  show b ∈ oxmFields12.map fun f => (f.code : ℕ)
  exact hm b hb hbit

/-! ### Ids there and back -/

theorem code_inj {f g : OfbField} (h : (f.code : ℕ) = g.code) : f = g := by
  have hkey : f.key = g.key := by
    simp only [OfbField.key, OxmId.type, OfbField.oxmId, h]
  exact OfbField.key_inj hkey

/-- Only OXMs with a bit come back, and where one had a mask it has lost it. -/
theorem mem_oxm {is : List UInt32} {i : UInt32} :
    i ∈ Bitrows.ids oxmOfMatch (Bitrows.bits matchOfOxm is : BitVec 64) ↔
      HasBit i ∧ i ∈ is ∨ ∃ j ∈ is, Unmasked j i := by
  rw [Bitrows.mem_ids_bits (by decide) (by decide)]
  constructor
  · rintro ⟨j, hj, b, hlook, hrow⟩
    have hmem := Bitrows.mem_of_lookup hlook
    rw [oxmOfMatch_eq, List.mem_map] at hrow
    obtain ⟨g, hg, hgrow⟩ := hrow
    obtain ⟨rfl, rfl⟩ := Prod.mk.inj hgrow
    rw [matchOfOxm_eq, List.mem_append, List.mem_map, List.mem_map] at hmem
    rcases hmem with ⟨f, hf, hfrow⟩ | ⟨f, hf, hfrow⟩
    · obtain ⟨rfl, hcode⟩ := Prod.mk.inj hfrow
      rw [code_inj hcode] at hj
      exact .inl ⟨⟨g, hg, rfl⟩, hj⟩
    · obtain ⟨rfl, hcode⟩ := Prod.mk.inj hfrow
      exact .inr ⟨_, hj, f, hf, rfl, by rw [code_inj hcode]⟩
  · rintro (⟨⟨f, hf, rfl⟩, hi⟩ | ⟨_, hj, f, hf, rfl, rfl⟩)
    · have hrow : ((f.code : ℕ), f.oxmId.word) ∈ oxmOfMatch := List.mem_map.mpr ⟨f, hf, rfl⟩
      exact ⟨_, hi, _, lookup_oxm _ hrow, hrow⟩
    · have hfields : ∀ f ∈ oxmMasks12, f ∈ oxmFields12 := by decide
      exact ⟨_, hj, _, lookup_oxmMask f hf, List.mem_map.mpr ⟨f, hfields f hf, rfl⟩⟩

/-! ### Actions and instructions -/

section Types

variable {ts : List ℕ} (hts : ∀ t ∈ ts, t < 32)

include hts

theorem lookup_type {t : ℕ} (ht : t ∈ ts) : (ts.map fun t => (UInt16.ofNat t, t)).lookup (.ofNat t) = some t := by
  have hsome : ((ts.map fun t => (UInt16.ofNat t, t)).lookup (.ofNat t)).isSome := by
    rw [List.lookup_isSome_iff]
    exact ⟨_, List.mem_map.mpr ⟨t, ht, rfl⟩, beq_self_eq_true _⟩
  obtain ⟨b, hb⟩ := Option.isSome_iff_exists.mp hsome
  obtain ⟨c, hc, hrow⟩ := List.mem_map.mp (Bitrows.mem_of_lookup hb)
  obtain ⟨hcode, rfl⟩ := Prod.mk.inj hrow
  have hlt := hts t ht
  have hclt := hts c hc
  have hnat := congrArg UInt16.toNat hcode
  rw [UInt16.toNat_ofNat', UInt16.toNat_ofNat', Nat.mod_eq_of_lt (by omega), Nat.mod_eq_of_lt (by omega)] at hnat
  rw [hb, hnat]

theorem bits_types {m : BitVec 32} (hm : Within m ts) :
    Bitrows.bits (ts.map fun t => (UInt16.ofNat t, t)) (Bitrows.ids (ts.map fun t => (t, UInt16.ofNat t)) m) = m := by
  refine Bitrows.bits_ids ?_ ?_ ?_ fun b hb hbit => ?_
  · simpa using hts
  · intro row hrow
    obtain ⟨t, ht, rfl⟩ := List.mem_map.mp hrow
    exact lookup_type hts ht
  · simpa using hts
  · have hmem := hm b hb hbit
    simpa using hmem

theorem mem_types {is : List UInt16} {i : UInt16} :
    i ∈ Bitrows.ids (ts.map fun t => (t, UInt16.ofNat t))
      (Bitrows.bits (ts.map fun t => (UInt16.ofNat t, t)) is : BitVec 32) ↔ i ∈ is ∧ i.toNat ∈ ts := by
  rw [Bitrows.mem_ids_bits (by simpa using hts) (by simpa using hts)]
  constructor
  · rintro ⟨j, hj, b, hlook, hrow⟩
    obtain ⟨t, ht, hrow⟩ := List.mem_map.mp hrow
    obtain ⟨rfl, rfl⟩ := Prod.mk.inj hrow
    obtain ⟨c, _, hback⟩ := List.mem_map.mp (Bitrows.mem_of_lookup hlook)
    obtain ⟨rfl, rfl⟩ := Prod.mk.inj hback
    have hlt := hts c ht
    rw [UInt16.toNat_ofNat', Nat.mod_eq_of_lt (by omega)]
    exact ⟨hj, ht⟩
  · rintro ⟨hi, ht⟩
    have hlook := lookup_type hts ht
    rw [UInt16.ofNat_toNat] at hlook
    exact ⟨i, hi, i.toNat, hlook, List.mem_map.mpr ⟨i.toNat, ht, by rw [UInt16.ofNat_toNat]⟩⟩

end Types

end TableMapping

/-! ## Tables there and back -/

namespace TableMapping

open Openflow13

/-- Only bits that version 1.2 defines. -/
structure Within12 (s : CoftableStatsReply) : Prop where
  match_ : Within s.match_ (oxmFields12.map fun f => (f.code : ℕ))
  wildcards : Within s.wildcards (oxmFields12.map fun f => (f.code : ℕ))
  writeActions : Within s.writeActions actions12
  applyActions : Within s.applyActions actions12
  writeSetfields : Within s.writeSetfields (oxmFields12.map fun f => (f.code : ℕ))
  applySetfields : Within s.applySetfields (oxmFields12.map fun f => (f.code : ℕ))
  instructions : Within s.instructions instructions12

/-- The properties that a bitmap is made of, each of its class. -/
structure Present (p : TfpMap) : Prop where
  kind : ∀ e ∈ p.entries, tfpKind e.1 = some e.2.kind
  found : ∀ type ∈ [OFPTFPT_MATCH, OFPTFPT_WILDCARDS, OFPTFPT_WRITE_ACTIONS, OFPTFPT_APPLY_ACTIONS,
    OFPTFPT_WRITE_SETFIELD, OFPTFPT_APPLY_SETFIELD, OFPTFPT_INSTRUCTIONS], (p.find? type).isSome

/-- The statistics that come back for a table. -/
def mapped (tableId : ℕ) (s : CoftableStatsReply) : CoftableStatsReply :=
  { s with ofVersion := Openflow12.OFP_VERSION, tableId := .ofNat tableId, activeCount := 0, lookupCount := 0,
           matchedCount := 0 }

/-- The properties that come back for those of a table. -/
structure Kept (p p' : TfpMap) : Prop where
  oxms : ∀ type ∈ [OFPTFPT_MATCH, OFPTFPT_WILDCARDS, OFPTFPT_WRITE_SETFIELD, OFPTFPT_APPLY_SETFIELD],
    ∃ is idsExp is', p.find? type = some (.oxm is idsExp) ∧ p'.find? type = some (.oxm is' []) ∧
      ∀ i, i ∈ is' ↔ HasBit i ∧ i ∈ is ∨ ∃ j ∈ is, Unmasked j i
  actions : ∀ type ∈ [OFPTFPT_WRITE_ACTIONS, OFPTFPT_APPLY_ACTIONS],
    ∃ is is', actionIds p type = .ok is ∧ actionIds p' type = .ok is' ∧ ∀ i, i ∈ is' ↔ i ∈ is ∧ i.toNat ∈ actions12
  instructions : ∃ is is', instructionIds p OFPTFPT_INSTRUCTIONS = .ok is ∧
    instructionIds p' OFPTFPT_INSTRUCTIONS = .ok is' ∧ ∀ i, i ∈ is' ↔ i ∈ is ∧ i.toNat ∈ instructions12

theorem oxmIds_eq {p : TfpMap} {type : ℕ} {ids : List UInt32} {idsExp : List UInt64}
    (h : p.find? type = some (.oxm ids idsExp)) : oxmIds p type = .ok ids := by
  rw [oxmIds, h]

theorem actionIds_eq {p : TfpMap} {type : ℕ} {ids : List TypeLen} (h : p.find? type = some (.actions ids)) :
    actionIds p type = .ok (ids.map TypeLen.type) := by
  rw [actionIds, h]

theorem instructionIds_eq {p : TfpMap} {type : ℕ} {ids : List TypeLen} (h : p.find? type = some (.instructions ids)) :
    instructionIds p type = .ok (ids.map TypeLen.type) := by
  rw [instructionIds, h]

theorem withWildcards_eq {p : TfpMap} (h : (p.find? OFPTFPT_WILDCARDS).isSome) : withWildcards p = p := if_pos h

/-! ### The properties of a table that was mapped -/

section

variable (k : ℕ) (s : CoftableStatsReply)

/-- The properties that are set have different types. -/
theorem find?_tableOf {type : ℕ} {p : Tfp} (h : (type, p) ∈ tableProps s) :
    (tableOf k s).properties.find? type = some p := by
  have hnodup : ((tableProps s).map Prod.fst).Nodup := by
    show [OFPTFPT_MATCH, OFPTFPT_WILDCARDS, OFPTFPT_WRITE_ACTIONS, OFPTFPT_WRITE_ACTIONS_MISS, OFPTFPT_APPLY_ACTIONS,
      OFPTFPT_APPLY_ACTIONS_MISS, OFPTFPT_WRITE_SETFIELD, OFPTFPT_WRITE_SETFIELD_MISS, OFPTFPT_APPLY_SETFIELD,
      OFPTFPT_APPLY_SETFIELD_MISS, OFPTFPT_INSTRUCTIONS, OFPTFPT_INSTRUCTIONS_MISS].Nodup
    decide
  exact Omap.find?_insertAll _ hnodup h

theorem find?_match : (tableOf k s).properties.find? OFPTFPT_MATCH = some (oxmProp s.match_) :=
  find?_tableOf k s (by simp [tableProps])

theorem find?_wildcards : (tableOf k s).properties.find? OFPTFPT_WILDCARDS = some (oxmProp s.wildcards) :=
  find?_tableOf k s (by simp [tableProps])

theorem find?_writeActions :
    (tableOf k s).properties.find? OFPTFPT_WRITE_ACTIONS = some (actionsProp s.writeActions) :=
  find?_tableOf k s (by simp [tableProps])

theorem find?_applyActions :
    (tableOf k s).properties.find? OFPTFPT_APPLY_ACTIONS = some (actionsProp s.applyActions) :=
  find?_tableOf k s (by simp [tableProps])

theorem find?_writeSetfield :
    (tableOf k s).properties.find? OFPTFPT_WRITE_SETFIELD = some (oxmProp s.writeSetfields) :=
  find?_tableOf k s (by simp [tableProps])

theorem find?_applySetfield :
    (tableOf k s).properties.find? OFPTFPT_APPLY_SETFIELD = some (oxmProp s.applySetfields) :=
  find?_tableOf k s (by simp [tableProps])

theorem find?_instructions :
    (tableOf k s).properties.find? OFPTFPT_INSTRUCTIONS = some (instructionsProp s.instructions) :=
  find?_tableOf k s (by simp [tableProps])

end

theorem map_type (ts : List UInt16) : (ts.map fun t => (⟨t, 4⟩ : TypeLen)).map TypeLen.type = ts := by
  rw [List.map_map]
  exact List.map_id ts

/-- What a turn of the second loop makes of the ids it finds. -/
theorem statsOf_eq {t : CoftableFeatures} {match_ wildcards writeSetfields applySetfields : List UInt32}
    {writeActions applyActions instructions : List UInt16}
    (hmatch : oxmIds t.properties OFPTFPT_MATCH = .ok match_)
    (hwildcards : oxmIds (withWildcards t.properties) OFPTFPT_WILDCARDS = .ok wildcards)
    (hwriteActions : actionIds t.properties OFPTFPT_WRITE_ACTIONS = .ok writeActions)
    (happlyActions : actionIds t.properties OFPTFPT_APPLY_ACTIONS = .ok applyActions)
    (hwriteSetfields : oxmIds t.properties OFPTFPT_WRITE_SETFIELD = .ok writeSetfields)
    (happlySetfields : oxmIds t.properties OFPTFPT_APPLY_SETFIELD = .ok applySetfields)
    (hinstructions : instructionIds t.properties OFPTFPT_INSTRUCTIONS = .ok instructions) (k : ℕ) :
    statsOf k t = .ok
      ⟨Openflow12.OFP_VERSION, .ofNat k, t.name, Bitrows.bits matchOfOxm match_, Bitrows.bits matchOfOxm wildcards,
        Bitrows.bits actionsOfAction writeActions, Bitrows.bits actionsOfAction applyActions,
        Bitrows.bits matchOfOxm writeSetfields, Bitrows.bits matchOfOxm applySetfields, t.metadataMatch, t.metadataWrite,
        Bitrows.bits instructionsOfInstruction instructions, t.config, t.maxEntries, 0, 0, 0⟩ := by
  rw [statsOf, hmatch, hwildcards, hwriteActions, happlyActions, hwriteSetfields, happlySetfields, hinstructions]
  rfl

/-- The first direction undone by the second. -/
theorem statsOf_tableOf {s : CoftableStatsReply} (hs : Within12 s) (k : ℕ) :
    statsOf k (tableOf k s) = .ok (mapped k s) := by
  have hpresent := withWildcards_eq (Option.isSome_iff_exists.mpr ⟨_, find?_wildcards k s⟩)
  have hwildcards := oxmIds_eq (find?_wildcards k s)
  rw [← hpresent] at hwildcards
  rw [statsOf_eq (oxmIds_eq (find?_match k s)) hwildcards (actionIds_eq (find?_writeActions k s))
    (actionIds_eq (find?_applyActions k s)) (oxmIds_eq (find?_writeSetfield k s)) (oxmIds_eq (find?_applySetfield k s))
    (instructionIds_eq (find?_instructions k s)), map_type, map_type, map_type, bits_oxm hs.match_,
    bits_oxm hs.wildcards, bits_oxm hs.writeSetfields, bits_oxm hs.applySetfields,
    actionsOfAction_eq, actionOfActions_eq, bits_types (by decide) hs.writeActions,
    bits_types (by decide) hs.applyActions, instructionsOfInstruction_eq, instructionOfInstructions_eq,
    bits_types (by decide) hs.instructions]
  rfl

theorem Present.exists_kind {p : TfpMap} (h : Present p) {type : ℕ} {kind : TfpKind} (hkind : tfpKind type = some kind)
    (hfound : (p.find? type).isSome) : ∃ prop, p.find? type = some prop ∧ prop.kind = kind := by
  obtain ⟨prop, hprop⟩ := Option.isSome_iff_exists.mp hfound
  have hentry := h.kind _ (Omap.find?_eq_some.mp hprop)
  rw [hkind, Option.some.injEq] at hentry
  exact ⟨prop, hprop, hentry.symm⟩

theorem Present.exists_oxm {p : TfpMap} (h : Present p) {type : ℕ} (hkind : tfpKind type = some .oxm)
    (hfound : (p.find? type).isSome) : ∃ is idsExp, p.find? type = some (.oxm is idsExp) := by
  obtain ⟨prop, hprop, hof⟩ := h.exists_kind hkind hfound
  cases prop with
  | oxm is idsExp => exact ⟨is, idsExp, hprop⟩
  | _ => cases hof

theorem Present.exists_actions {p : TfpMap} (h : Present p) {type : ℕ} (hkind : tfpKind type = some .actions)
    (hfound : (p.find? type).isSome) : ∃ is, p.find? type = some (.actions is) := by
  obtain ⟨prop, hprop, hof⟩ := h.exists_kind hkind hfound
  cases prop with
  | actions is => exact ⟨is, hprop⟩
  | _ => cases hof

theorem Present.exists_instructions {p : TfpMap} (h : Present p) {type : ℕ}
    (hkind : tfpKind type = some .instructions) (hfound : (p.find? type).isSome) :
    ∃ is, p.find? type = some (.instructions is) := by
  obtain ⟨prop, hprop, hof⟩ := h.exists_kind hkind hfound
  cases prop with
  | instructions is => exact ⟨is, hprop⟩
  | _ => cases hof

/-- The second direction undone by the first: one table. -/
theorem kept_tableOf {t : CoftableFeatures} (ht : Present t.properties) (k : ℕ) :
    ∃ s, statsOf k t = .ok s ∧ Kept t.properties (tableOf k s).properties := by
  have hpresent := withWildcards_eq (ht.found OFPTFPT_WILDCARDS (by decide))
  obtain ⟨m, mExp, hm⟩ := ht.exists_oxm (show tfpKind OFPTFPT_MATCH = _ from rfl) (ht.found _ (by decide))
  obtain ⟨w, wExp, hw⟩ := ht.exists_oxm (show tfpKind OFPTFPT_WILDCARDS = _ from rfl) (ht.found _ (by decide))
  obtain ⟨wa, hwa⟩ := ht.exists_actions (show tfpKind OFPTFPT_WRITE_ACTIONS = _ from rfl) (ht.found _ (by decide))
  obtain ⟨aa, haa⟩ := ht.exists_actions (show tfpKind OFPTFPT_APPLY_ACTIONS = _ from rfl) (ht.found _ (by decide))
  obtain ⟨ws, wsExp, hws⟩ := ht.exists_oxm (show tfpKind OFPTFPT_WRITE_SETFIELD = _ from rfl) (ht.found _ (by decide))
  obtain ⟨as, asExp, has⟩ := ht.exists_oxm (show tfpKind OFPTFPT_APPLY_SETFIELD = _ from rfl) (ht.found _ (by decide))
  obtain ⟨is, his⟩ := ht.exists_instructions (show tfpKind OFPTFPT_INSTRUCTIONS = _ from rfl) (ht.found _ (by decide))
  have hwildcards := oxmIds_eq hw
  rw [← hpresent] at hwildcards
  refine ⟨_, statsOf_eq (oxmIds_eq hm) hwildcards (actionIds_eq hwa) (actionIds_eq haa) (oxmIds_eq hws) (oxmIds_eq has)
    (instructionIds_eq his) k, ⟨fun type htype => ?_, fun type htype => ?_, ?_⟩⟩
  · simp only [List.mem_cons, List.not_mem_nil, or_false] at htype
    rcases htype with rfl | rfl | rfl | rfl
    · exact ⟨m, mExp, _, hm, find?_match k _, fun _ => mem_oxm⟩
    · exact ⟨w, wExp, _, hw, find?_wildcards k _, fun _ => mem_oxm⟩
    · exact ⟨ws, wsExp, _, hws, find?_writeSetfield k _, fun _ => mem_oxm⟩
    · exact ⟨as, asExp, _, has, find?_applySetfield k _, fun _ => mem_oxm⟩
  · simp only [List.mem_cons, List.not_mem_nil, or_false] at htype
    rcases htype with rfl | rfl
    · refine ⟨_, _, actionIds_eq hwa, actionIds_eq (find?_writeActions k _), fun i => ?_⟩
      rw [map_type, actionOfActions_eq, actionsOfAction_eq, mem_types (by decide)]
    · refine ⟨_, _, actionIds_eq haa, actionIds_eq (find?_applyActions k _), fun i => ?_⟩
      rw [map_type, actionOfActions_eq, actionsOfAction_eq, mem_types (by decide)]
  · refine ⟨_, _, instructionIds_eq his, instructionIds_eq (find?_instructions k _), fun i => ?_⟩
    rw [map_type, instructionOfInstructions_eq, instructionsOfInstruction_eq, mem_types (by decide)]

/-! ### The loops -/

/-- A loop that adds what a function that may throw makes of each entry. -/
theorem foldlM_insert {α β ε : Type} (x : Omap ℕ α) {f : ℕ → α → Except ε β} {g : ℕ → α → β}
    (h : ∀ e ∈ x.entries, f e.1 e.2 = .ok (g e.1 e.2)) :
    x.entries.foldlM (fun m e => do return m.insert e.1 (← f e.1 e.2)) Omap.empty = .ok (x.map g) := by
  have hfold : ∀ (es : List (ℕ × α)) (m : Omap ℕ β), (∀ e ∈ es, f e.1 e.2 = .ok (g e.1 e.2)) →
      es.foldlM (fun m e => do return m.insert e.1 (← f e.1 e.2)) m =
        .ok (es.foldl (fun m e => m.insert e.1 (g e.1 e.2)) m) := by
    intro es
    induction es with
    | nil =>
      intro m _
      rfl
    | cons e es ih =>
      intro m hes
      rw [List.foldlM_cons, hes e List.mem_cons_self]
      exact ih _ fun e' he' => hes e' (List.mem_cons_of_mem e he')
  rw [hfold x.entries Omap.empty h]
  exact congrArg Except.ok (x.foldl_insert g)

theorem tables_mapTablestatsarrayToTables (s : Coftablestatsarray) :
    (mapTablestatsarrayToTables s).tables = s.array.map tableOf := s.array.foldl_insert tableOf

end TableMapping

open TableMapping

theorem mapTablesToTablestatsarray_eq {x : Coftables} {g : ℕ → CoftableFeatures → CoftableStatsReply}
    (h : ∀ e ∈ x.tables.entries, statsOf e.1 e.2 = .ok (g e.1 e.2)) : ∃ x', mapTablesToTablestatsarray x =
      .ok (x', ⟨Openflow12.OFP_VERSION, x.tables.map g⟩) := by
  rw [mapTablesToTablestatsarray, foldlM_insert x.tables h]
  exact ⟨_, rfl⟩

/-- Version 1.2 to 1.3 and back. -/
theorem tablestatsarray_mapped {s : Coftablestatsarray} (hs : ∀ e ∈ s.array.entries, Within12 e.2) :
    ∃ x' s', mapTablesToTablestatsarray (mapTablestatsarrayToTables s) = .ok (x', s') ∧
      s'.ofpVersion = Openflow12.OFP_VERSION ∧ ∀ k, s'.array.find? k = (s.array.find? k).map (mapped k) := by
  have hback : ∀ e ∈ (mapTablestatsarrayToTables s).tables.entries,
      statsOf e.1 e.2 = .ok (mapped e.1 ((s.array.find? e.1).getD (.new 0))) := by
    rintro ⟨k, t⟩ he
    rw [tables_mapTablestatsarrayToTables, ← Omap.find?_eq_some, Omap.find?_map, Option.map_eq_some_iff] at he
    obtain ⟨r, hr, rfl⟩ := he
    rw [hr]
    exact statsOf_tableOf (hs _ (Omap.find?_eq_some.mp hr)) k
  obtain ⟨x', hx'⟩ := mapTablesToTablestatsarray_eq (g := fun k _ => mapped k ((s.array.find? k).getD (.new 0))) hback
  refine ⟨x', _, hx', rfl, fun k => ?_⟩
  rw [Omap.find?_map, tables_mapTablestatsarrayToTables, Omap.find?_map]
  cases s.array.find? k <;> rfl

/-- Version 1.3 to 1.2 and back. -/
theorem tables_kept {x : Coftables} (hx : ∀ e ∈ x.tables.entries, Present e.2.properties) :
    ∃ x' s, mapTablesToTablestatsarray x = .ok (x', s) ∧ ∀ k, match x.tables.find? k with
      | none => (mapTablestatsarrayToTables s).tables.find? k = none
      | some t => ∃ t', (mapTablestatsarrayToTables s).tables.find? k = some t' ∧ Kept t.properties t'.properties := by
  have hok : ∀ e ∈ x.tables.entries, statsOf e.1 e.2 = .ok ((statsOf e.1 e.2).toOption.getD (.new 0)) := by
    intro e he
    obtain ⟨s, hs, _⟩ := kept_tableOf (hx e he) e.1
    rw [hs]
    rfl
  obtain ⟨x', hx'⟩ := mapTablesToTablestatsarray_eq (g := fun k t => (statsOf k t).toOption.getD (.new 0)) hok
  refine ⟨x', _, hx', fun k => ?_⟩
  rw [tables_mapTablestatsarrayToTables, Omap.find?_map, Omap.find?_map]
  cases hfind : x.tables.find? k with
  | none => rfl
  | some t =>
    obtain ⟨s, hs, hkept⟩ := kept_tableOf (hx _ (Omap.find?_eq_some.mp hfind)) k
    refine ⟨_, rfl, ?_⟩
    simp only [hs]
    exact hkept

/-- Bitmaps survive both ways, and ids survive where they have a bit, OXMs without their
mask. -/
theorem tables_mapped {s : Coftablestatsarray} (hs : ∀ e ∈ s.array.entries, Within12 e.2) {x : Coftables}
    (hx : ∀ e ∈ x.tables.entries, Present e.2.properties) :
    (∃ x' s', mapTablesToTablestatsarray (mapTablestatsarrayToTables s) = .ok (x', s') ∧
      s'.ofpVersion = Openflow12.OFP_VERSION ∧ ∀ k, s'.array.find? k = (s.array.find? k).map (mapped k)) ∧
    ∃ x' s', mapTablesToTablestatsarray x = .ok (x', s') ∧ ∀ k, match x.tables.find? k with
      | none => (mapTablestatsarrayToTables s').tables.find? k = none
      | some t => ∃ t', (mapTablestatsarrayToTables s').tables.find? k = some t' ∧ Kept t.properties t'.properties :=
  ⟨tablestatsarray_mapped hs, tables_kept hx⟩

/-- A table of version 1.3 that matches on metadata with a mask. -/
def TableMapping.masked : Coftables :=
  ⟨Openflow13.OFP_VERSION, Omap.empty.insert 0 { CoftableFeatures.new Openflow13.OFP_VERSION with
    properties := Omap.empty.insertAll
      [(Openflow13.OFPTFPT_INSTRUCTIONS, .instructions [⟨.ofNat Openflow.OFPIT_GOTO_TABLE, 4⟩]),
       (Openflow13.OFPTFPT_WRITE_ACTIONS, .actions []), (Openflow13.OFPTFPT_APPLY_ACTIONS, .actions []),
       (Openflow13.OFPTFPT_MATCH, .oxm [OfbField.metadata.oxmIdMask.word] []),
       (Openflow13.OFPTFPT_WILDCARDS, .oxm [] []), (Openflow13.OFPTFPT_WRITE_SETFIELD, .oxm [] []),
       (Openflow13.OFPTFPT_APPLY_SETFIELD, .oxm [] [])] }⟩

theorem TableMapping.present_masked : ∀ e ∈ masked.tables.entries, Present e.2.properties := by
  intro e he
  obtain rfl : e = _ := List.mem_singleton.mp he
  exact ⟨by decide, by decide⟩

/-- A table of version 1.2 with bits at both ends of its bitmaps. -/
def TableMapping.bitmaps : Coftablestatsarray :=
  ⟨Openflow12.OFP_VERSION, Omap.empty.insert 3 { CoftableStatsReply.new Openflow12.OFP_VERSION with
    match_ := 0x800000001, writeActions := 0x2000001, instructions := 0x3e }⟩

theorem TableMapping.within12_bitmaps : ∀ e ∈ bitmaps.array.entries, Within12 e.2 := by
  intro e he
  obtain rfl : e = _ := List.mem_singleton.mp he
  exact ⟨by decide +kernel, by decide +kernel, by decide, by decide, by decide +kernel, by decide +kernel, by decide⟩

theorem tables_mapped_pair :
    (∃ x' s', mapTablesToTablestatsarray (mapTablestatsarrayToTables bitmaps) = .ok (x', s') ∧
      s'.ofpVersion = Openflow12.OFP_VERSION ∧ ∀ k, s'.array.find? k = (bitmaps.array.find? k).map (mapped k)) ∧
    ∃ x' s', mapTablesToTablestatsarray masked = .ok (x', s') ∧ ∀ k, match masked.tables.find? k with
      | none => (mapTablestatsarrayToTables s').tables.find? k = none
      | some t => ∃ t', (mapTablestatsarrayToTables s').tables.find? k = some t' ∧ Kept t.properties t'.properties :=
  tables_mapped within12_bitmaps present_masked

/-- Whatever it is to have a bit, it is not the ids that have one that come back: metadata
comes back, which was not there without a mask. -/
theorem masked_unmasked : ¬∃ hasBit : UInt32 → Prop, ∀ x : Coftables, (∀ e ∈ x.tables.entries, Present e.2.properties) →
    ∀ x' s, mapTablesToTablestatsarray x = .ok (x', s) →
      ∀ k t t', x.tables.find? k = some t → (mapTablestatsarrayToTables s).tables.find? k = some t' →
        ∀ is idsExp is' idsExp', t.properties.find? Openflow13.OFPTFPT_MATCH = some (.oxm is idsExp) →
          t'.properties.find? Openflow13.OFPTFPT_MATCH = some (.oxm is' idsExp') →
            ∀ i, i ∈ is' ↔ i ∈ is ∧ hasBit i := by
  rintro ⟨hasBit, h⟩
  have hback := h masked present_masked _ _ rfl 0 _ _ rfl rfl _ _ _ _ rfl rfl OfbField.metadata.oxmId.word
  have hmem := (hback.mp (by decide +kernel)).1
  exact absurd hmem (by decide +kernel)

end RoflCommon
